import CyreneReactor.Runtime.Custody
import CyreneReactor.Runtime.Stream

namespace CyreneReactor.Runtime.InferenceServer

open Interaction TaskScheduler

/-! What a call has been told by its task, and what it has taken. -/

namespace Post

def response? : Post → Option String
  | .respond item => some item
  | _ => none

def progress? : Post → Option String
  | .progress item => some item
  | _ => none

def failure? : Post → Option Thrown
  | .fail thrown => some thrown
  | _ => none

end Post

section Progress

variable (modelLoaded : Bool) (messages chunks : List String)

@[simp]
theorem responses_progressPosts :
    (progressPosts modelLoaded messages).filterMap Post.response? = [] := by
  unfold progressPosts
  split
  · rfl
  · simp [List.filterMap_map, Post.response?, Function.comp_def]

@[simp]
theorem responses_progressEnd : (progressEnd modelLoaded).filterMap Post.response? = [] := by
  cases modelLoaded <;> rfl

@[simp]
theorem responses_chunks : (chunks.map Post.respond).filterMap Post.response? = chunks := by
  simp [List.filterMap_map, Post.response?, Function.comp_def]

@[simp]
theorem failures_progressPosts :
    (progressPosts modelLoaded messages).filterMap Post.failure? = [] := by
  unfold progressPosts
  split
  · rfl
  · simp [List.filterMap_map, Post.failure?, Function.comp_def]

@[simp]
theorem failures_progressEnd : (progressEnd modelLoaded).filterMap Post.failure? = [] := by
  cases modelLoaded <;> rfl

@[simp]
theorem failures_chunks : (chunks.map Post.respond).filterMap Post.failure? = [] := by
  simp [List.filterMap_map, Post.failure?, Function.comp_def]

end Progress

/-- The queues of a call after some posts, if nothing was taken. -/
def posted (modelLoaded : Bool) (posts : List Post) : Channel :=
  posts.foldl Channel.post (.opened modelLoaded)

theorem posted_concat (modelLoaded : Bool) (posts : List Post) (post : Post) :
    posted modelLoaded (posts ++ [post]) = (posted modelLoaded posts).post post := by
  simp [posted]

section Posted

variable (channel : Channel) (posts : List Post)

theorem responses_foldl : (posts.foldl Channel.post channel).responses =
    channel.responses ++ posts.filterMap Post.response? := by
  induction posts generalizing channel with
  | nil => simp
  | cons post rest ih =>
      rw [List.foldl_cons, ih]
      cases post <;> simp [Channel.post, Post.response?, List.filterMap_cons]

theorem progress_foldl : (posts.foldl Channel.post channel).progress =
    channel.progress ++ posts.filterMap Post.progress? := by
  induction posts generalizing channel with
  | nil => simp
  | cons post rest ih =>
      rw [List.foldl_cons, ih]
      cases post <;> simp [Channel.post, Post.progress?, List.filterMap_cons]

theorem error_foldl : (posts.foldl Channel.post channel).error =
    channel.error.or (posts.findSome? Post.failure?) := by
  induction posts generalizing channel with
  | nil => simp
  | cons post rest ih =>
      rw [List.foldl_cons, ih]
      cases post <;> cases error : channel.error <;>
        simp [Channel.post, Post.failure?, List.findSome?_cons, error]

end Posted

theorem responses_posted (modelLoaded : Bool) (posts : List Post) :
    (posted modelLoaded posts).responses = posts.filterMap Post.response? := by
  simp [posted, responses_foldl, Channel.opened]

theorem error_posted (modelLoaded : Bool) (posts : List Post) :
    (posted modelLoaded posts).error = posts.findSome? Post.failure? := by
  simp [posted, error_foldl, Channel.opened]

/-- What a caller took up to the marker is all that was posted before it. -/
theorem taken_eq {taken later chunks rest : List String} (clean : sentinel ∉ taken)
    (plain : sentinel ∉ chunks) (same : taken ++ sentinel :: later <+: chunks ++ sentinel :: rest) :
    taken = chunks := by
  induction taken generalizing chunks with
  | nil =>
      cases chunks with
      | nil => rfl
      | cons chunk chunks =>
          have first := (List.cons_prefix_cons.mp same).1
          exact absurd (first ▸ List.mem_cons_self) plain
  | cons item taken ih =>
      cases chunks with
      | nil =>
          have first := (List.cons_prefix_cons.mp same).1
          exact absurd (first ▸ List.mem_cons_self) clean
      | cons chunk chunks =>
          obtain ⟨rfl, tail⟩ := List.cons_prefix_cons.mp same
          rw [ih (List.not_mem_of_not_mem_cons clean) (List.not_mem_of_not_mem_cons plain) tail]

/-- What a step of a call does, by where the call stands. -/
inductive Consumed (submit : Submit) (consumer : Consumer) (channel : Channel) :
    Consumer → Channel → Prop
  | start (stage : consumer.stage = .submitting) (accepted : submit = .accepted)
      (loaded : consumer.modelLoaded = true) :
      Consumed submit consumer channel (consumer.atStage .reading) channel
  | await (stage : consumer.stage = .submitting) (accepted : submit = .accepted)
      (unloaded : consumer.modelLoaded = false) :
      Consumed submit consumer channel
        ((consumer.announce loadingAnnounced).atStage .polling) channel
  | reject {message : String} (stage : consumer.stage = .submitting)
      (rejected : submit = .busy ∨ submit = .refused) (different : message ≠ "Inference failed") :
      Consumed submit consumer channel
        (consumer.atStage (.closed (some (RuntimeError message)))) channel
  | idle (stage : consumer.stage = .polling) (empty : channel.progress = [])
      (failed : channel.error = none) :
      Consumed submit consumer channel (consumer.atStage (.checking false)) channel
  | giveUp (stage : consumer.stage = .polling) (empty : channel.progress = [])
      (failed : channel.error ≠ none) :
      Consumed submit consumer channel (consumer.atStage .reading) channel
  | loaded {rest : List String} (stage : consumer.stage = .polling)
      (front : channel.progress = progressSentinel :: rest) :
      Consumed submit consumer channel (consumer.atStage (.checking true))
        { channel with progress := rest }
  | loading {item : String} {rest : List String} (stage : consumer.stage = .polling)
      (front : channel.progress = item :: rest) (other : item ≠ progressSentinel) :
      Consumed submit consumer channel ((consumer.showProgress item).atStage (.checking false))
        { channel with progress := rest }
  | check {progressDone : Bool} (stage : consumer.stage = .checking progressDone)
      (failed : channel.error = none) :
      Consumed submit consumer channel
        (consumer.atStage (if progressDone then .reading else .polling)) channel
  | checkFailed {progressDone : Bool} (stage : consumer.stage = .checking progressDone)
      (failed : channel.error ≠ none) :
      Consumed submit consumer channel (consumer.atStage .flushing) channel
  | flushed {rest : List String} (stage : consumer.stage = .flushing)
      (front : channel.progress = rest ∨ channel.progress = progressSentinel :: rest) :
      Consumed submit consumer channel (consumer.atStage .reading) { channel with progress := rest }
  | flush {item : String} {rest : List String} (stage : consumer.stage = .flushing)
      (front : channel.progress = item :: rest) (other : item ≠ progressSentinel) :
      Consumed submit consumer channel (consumer.showProgress item) { channel with progress := rest }
  | deliver {item : String} {rest : List String} (stage : consumer.stage = .reading)
      (front : channel.responses = item :: rest) (other : item ≠ sentinel) :
      Consumed submit consumer channel (consumer.deliver item) { channel with responses := rest }
  | finish {rest : List String} (stage : consumer.stage = .reading)
      (front : channel.responses = sentinel :: rest) :
      Consumed submit consumer channel (consumer.atStage .ending) { channel with responses := rest }
  | close (stage : consumer.stage = .ending) (failed : channel.error = none) :
      Consumed submit consumer channel (consumer.atStage (.closed none)) channel
  | closeFailed (stage : consumer.stage = .ending) (failed : channel.error ≠ none) :
      Consumed submit consumer channel
        (consumer.atStage (.closed (some (RuntimeError "Inference failed")))) channel

theorem consumed_of_consume {submit : Submit} {consumer after : Consumer} {channel rest : Channel}
    (consumed : consume submit consumer channel = some (after, rest)) :
    Consumed submit consumer channel after rest := by
  unfold consume at consumed
  cases stage : consumer.stage with
  | submitting =>
      simp only [stage] at consumed
      cases submit with
      | accepted =>
          simp only at consumed
          split at consumed
          · cases consumed
            exact .start stage rfl ‹_›
          · cases consumed
            exact .await stage rfl (Bool.eq_false_iff.mpr ‹_›)
      | busy => cases consumed; exact .reject stage (.inl rfl) (by simp)
      | refused => cases consumed; exact .reject stage (.inr rfl) (by simp)
      | checking | passed | numbered => simp at consumed
  | polling =>
      simp only [stage] at consumed
      split at consumed
      · cases consumed
        cases failed : channel.error with
        | none => exact .idle stage ‹_› failed
        | some thrown => exact .giveUp stage ‹_› (by simp [failed])
      · split at consumed
        · rename_i front marker
          cases consumed
          exact .loaded stage (marker ▸ front)
        · cases consumed
          exact .loading stage ‹_› ‹_›
  | checking progressDone =>
      simp only [stage] at consumed
      cases consumed
      cases failed : channel.error with
      | none => exact .check stage failed
      | some thrown => exact .checkFailed stage (by simp [failed])
  | flushing =>
      simp only [stage] at consumed
      split at consumed
      · rename_i empty
        cases consumed
        have flushed : Consumed submit consumer channel (consumer.atStage .reading)
            { channel with progress := [] } := .flushed stage (.inl empty)
        rwa [show ({ channel with progress := [] } : Channel) = channel by rw [← empty]] at flushed
      · split at consumed
        · rename_i front marker
          cases consumed
          exact .flushed stage (.inr (marker ▸ front))
        · cases consumed
          exact .flush stage ‹_› ‹_›
  | reading =>
      simp only [stage] at consumed
      split at consumed
      · cases consumed
      · split at consumed
        · rename_i front marker
          cases consumed
          exact .finish stage (marker ▸ front)
        · cases consumed
          exact .deliver stage ‹_› ‹_›
  | ending =>
      simp only [stage] at consumed
      cases consumed
      cases failed : channel.error with
      | none => exact .close stage failed
      | some thrown => exact .closeFailed stage (by simp [failed])
  | closed raised => simp [stage] at consumed

namespace Stage

/-- The end marker, once it was taken. -/
def marks : Stage → List String
  | .ending | .closed none => [sentinel]
  | .closed (some thrown) => if thrown.message = "Inference failed" then [sentinel] else []
  | _ => []

/-- Before the end of the progress is met. -/
def loading : Stage → Bool
  | .submitting | .polling | .checking false => true
  | _ => false

end Stage

theorem ne_sentinel_of_loadingText {item text : String} (shown : loadingText item = some text) :
    text ≠ sentinel := by
  unfold loadingText at shown
  split at shown
  · cases shown
    intro same
    have first := congrArg (fun text : String => text.toList.head?) same
    simp [sentinel] at first
  · cases shown

/-- A step says at most one thing, the same to the caller and to the relay, and never
the end marker while the model loads. -/
inductive Consumer.Speaks (consumer next : Consumer) : Prop
  | nothing (relay : next.relay = consumer.relay) (announced : next.announced = consumer.announced)
  | chunk (item : String) (relay : next.relay = consumer.relayed item)
      (announced : next.announced = consumer.announced)
  | progress (text : String) (different : text ≠ sentinel) (relay : next.relay = consumer.relayed text)
      (announced : next.announced = consumer.announced ++ [text])

theorem Consumer.Speaks.of_stage {consumer next after : Consumer} (speaks : consumer.Speaks next)
    (relay : after.relay = next.relay) (announced : after.announced = next.announced) :
    consumer.Speaks after := by
  cases speaks with
  | nothing first second => exact .nothing (relay.trans first) (announced.trans second)
  | chunk item first second => exact .chunk item (relay.trans first) (announced.trans second)
  | progress text different first second =>
      exact .progress text different (relay.trans first) (announced.trans second)

theorem Consumer.speaks_showProgress (consumer : Consumer) (item : String) :
    consumer.Speaks (consumer.showProgress item) := by
  unfold Consumer.showProgress
  split
  · rename_i text shown
    exact .progress text (ne_sentinel_of_loadingText shown) rfl rfl
  · exact .nothing rfl rfl

/-- A call has taken, from what its task put into the queues, what it has yielded. -/
structure Told (consumer : Consumer) (channel : Channel) (posts : List Post) : Prop where
  responses : (posted consumer.modelLoaded posts).responses =
    consumer.delivered ++ consumer.stage.marks ++ channel.responses
  error : channel.error = (posted consumer.modelLoaded posts).error
  progress : consumer.stage.loading = true → ∃ seen, progressSentinel ∉ seen ∧
    (posted consumer.modelLoaded posts).progress = seen ++ channel.progress
  clean : sentinel ∉ consumer.delivered
  unloaded : consumer.stage.loading = true → consumer.stage ≠ .submitting →
    consumer.modelLoaded = false
  returned : consumer.stage = .closed none → ∃ earlier, earlier <+: posts ∧
    (posted consumer.modelLoaded earlier).error = none ∧
    sentinel ∈ (posted consumer.modelLoaded earlier).responses
  failed : consumer.stage = .closed (some (RuntimeError "Inference failed")) →
    (posted consumer.modelLoaded posts).error ≠ none

theorem told_opened (modelLoaded : Bool) (relay : Option Relay) :
    Told ⟨modelLoaded, .submitting, [], [], relay⟩ (.opened modelLoaded) [] where
  responses := by simp [posted, Channel.opened, Stage.marks]
  error := rfl
  progress := fun _ => ⟨[], by simp, rfl⟩
  clean := by simp
  unloaded := fun _ different => absurd rfl different
  returned := by simp
  failed := by simp

section Told

variable {consumer : Consumer} {channel : Channel} {posts : List Post}

/-- A post of the task. -/
theorem Told.post (told : Told consumer channel posts) (post : Post) :
    Told consumer (channel.post post) (posts ++ [post]) where
  responses := by
    rw [posted_concat]
    cases post <;> simp [Channel.post, told.responses]
  error := by
    rw [posted_concat]
    cases post <;> simp [Channel.post, told.error]
  progress := fun loading => by
    obtain ⟨seen, clean, taken⟩ := told.progress loading
    refine ⟨seen, clean, ?_⟩
    rw [posted_concat]
    cases post <;> simp [Channel.post, taken]
  clean := told.clean
  unloaded := told.unloaded
  returned := fun closed => by
    obtain ⟨earlier, before, unfailed, marked⟩ := told.returned closed
    exact ⟨earlier, before.trans (List.prefix_append _ _), unfailed, marked⟩
  failed := fun closed => by
    rw [posted_concat]
    have failed := told.failed closed
    cases post <;> simp [Channel.post, failed]

/-- A step that takes nothing from the responses, and no longer minds the progress. -/
theorem Told.of_quiet (told : Told consumer channel posts) {next : Consumer} {rest : List String}
    (modelLoaded : next.modelLoaded = consumer.modelLoaded)
    (delivered : next.delivered = consumer.delivered)
    (marks : next.stage.marks = consumer.stage.marks)
    (progress : next.stage.loading = true → ∃ seen, progressSentinel ∉ seen ∧
      (posted consumer.modelLoaded posts).progress = seen ++ rest)
    (unloaded : next.stage.loading = true → next.stage ≠ .submitting →
      consumer.modelLoaded = false)
    (ends : next.stage ≠ .closed none ∧
      next.stage ≠ .closed (some (RuntimeError "Inference failed"))) :
    Told next { channel with progress := rest } posts where
  responses := by rw [modelLoaded, delivered, marks]; exact told.responses
  error := by rw [modelLoaded]; exact told.error
  progress := by rw [modelLoaded]; exact progress
  clean := by rw [delivered]; exact told.clean
  unloaded := by rw [modelLoaded]; exact unloaded
  returned := fun closed => absurd closed ends.1
  failed := fun closed => absurd closed ends.2

/-- The call takes its next step. -/
theorem Told.consume {submit : Submit} {next : Consumer} {rest : Channel}
    (told : Told consumer channel posts)
    (consumed : consume submit consumer channel = some (next, rest)) : Told next rest posts := by
  cases consumed_of_consume consumed with
  | start stage _ _ =>
      exact told.of_quiet rfl rfl (by simp [stage, Stage.marks]) (by simp [Stage.loading])
        (by simp [Stage.loading]) (by simp)
  | await stage _ unloaded =>
      exact told.of_quiet rfl rfl (by simp [stage, Stage.marks])
        (fun _ => told.progress (by rw [stage]; rfl)) (fun _ _ => unloaded) (by simp)
  | reject stage _ different =>
      exact told.of_quiet rfl rfl (by simp [stage, Stage.marks, RuntimeError, different])
        (by simp [Stage.loading]) (by simp [Stage.loading]) (by simp [RuntimeError, different])
  | idle stage _ _ =>
      have loading : consumer.stage.loading = true := by rw [stage]; rfl
      exact told.of_quiet rfl rfl (by simp [stage, Stage.marks]) (fun _ => told.progress loading)
        (fun _ _ => told.unloaded loading (by simp [stage])) (by simp)
  | giveUp stage _ _ =>
      exact told.of_quiet rfl rfl (by simp [stage, Stage.marks]) (by simp [Stage.loading])
        (by simp [Stage.loading]) (by simp)
  | loaded stage _ =>
      exact told.of_quiet rfl rfl (by simp [stage, Stage.marks]) (by simp [Stage.loading])
        (by simp [Stage.loading]) (by simp)
  | @loading item later stage front other =>
      have loading : consumer.stage.loading = true := by rw [stage]; rfl
      obtain ⟨seen, clean, taken⟩ := told.progress loading
      refine told.of_quiet (by simp) (by simp) (by simp [stage, Stage.marks])
        (fun _ => ⟨seen ++ [item], ?_, by simp [taken, front]⟩)
        (fun _ _ => told.unloaded loading (by simp [stage])) (by simp)
      simp [clean, Ne.symm other]
  | @check progressDone stage _ =>
      cases progressDone with
      | true =>
          exact told.of_quiet rfl rfl (by simp [stage, Stage.marks]) (by simp [Stage.loading])
            (by simp [Stage.loading]) (by simp)
      | false =>
          have loading : consumer.stage.loading = true := by rw [stage]; rfl
          exact told.of_quiet rfl rfl (by simp [stage, Stage.marks])
            (fun _ => told.progress loading)
            (fun _ _ => told.unloaded loading (by simp [stage])) (by simp)
  | checkFailed stage _ =>
      exact told.of_quiet rfl rfl (by simp [stage, Stage.marks]) (by simp [Stage.loading])
        (by simp [Stage.loading]) (by simp)
  | flushed stage _ =>
      exact told.of_quiet rfl rfl (by simp [stage, Stage.marks]) (by simp [Stage.loading])
        (by simp [Stage.loading]) (by simp)
  | flush stage _ _ =>
      exact told.of_quiet (by simp) (by simp) (by simp [stage]) (by simp [stage, Stage.loading])
        (by simp [stage, Stage.loading]) (by simp [stage])
  | deliver stage front other =>
      have responses := told.responses
      rw [stage, front] at responses
      refine ⟨?_, told.error, ?_, ?_, ?_, ?_, ?_⟩
      · simp [Consumer.deliver, responses, stage, Stage.marks]
      · simp [Consumer.deliver, stage, Stage.loading]
      · simp [Consumer.deliver, told.clean, Ne.symm other]
      · simp [Consumer.deliver, stage, Stage.loading]
      · simp [Consumer.deliver, stage]
      · simp [Consumer.deliver, stage]
  | finish stage front =>
      have responses := told.responses
      rw [stage, front] at responses
      exact ⟨by simp [responses, Stage.marks], told.error, by simp [Stage.loading], told.clean,
        by simp [Stage.loading], by simp, by simp⟩
  | close stage failed =>
      have responses := told.responses
      rw [stage] at responses
      refine ⟨?_, told.error, ?_, told.clean, ?_, fun _ => ⟨posts, List.prefix_rfl, ?_, ?_⟩, by simp⟩
      · simpa [Stage.marks] using responses
      · simp [Stage.loading]
      · simp [Stage.loading]
      · exact told.error.symm.trans failed
      · simp [responses, Stage.marks]
  | closeFailed stage failed =>
      have responses := told.responses
      rw [stage] at responses
      refine ⟨?_, told.error, ?_, told.clean, ?_, by simp, fun _ => told.error ▸ failed⟩
      · simpa [Stage.marks, RuntimeError] using responses
      · simp [Stage.loading]
      · simp [Stage.loading]

/-- A call that ends with an exception failed, or was never accepted. -/
theorem raised_of_consume {submit : Submit} {next : Consumer} {rest : Channel} {thrown : Thrown}
    (consumed : InferenceServer.consume submit consumer channel = some (next, rest))
    (closed : next.stage = .closed (some thrown)) :
    thrown = RuntimeError "Inference failed" ∨ submit = .busy ∨ submit = .refused := by
  cases consumed_of_consume consumed with
  | reject _ rejected _ => exact .inr rejected
  | closeFailed _ _ => exact .inl (by simpa using closed.symm)
  | check => split at closed <;> simp at closed
  | flush stage | deliver stage => simp [Consumer.deliver, stage] at closed
  | _ => simp at closed

theorem kept_of_consume {submit : Submit} {next : Consumer} {rest : Channel}
    (consumed : InferenceServer.consume submit consumer channel = some (next, rest)) :
    next.modelLoaded = consumer.modelLoaded ∧ consumer.Speaks next := by
  cases consumed_of_consume consumed with
  | await => exact ⟨rfl, .progress loadingAnnounced (by decide) rfl rfl⟩
  | loading | flush =>
      exact ⟨by simp, (consumer.speaks_showProgress _).of_stage rfl rfl⟩
  | deliver => exact ⟨rfl, .chunk _ rfl rfl⟩
  | _ => exact ⟨rfl, .nothing rfl rfl⟩

/-- The relay of a call is its own. -/
theorem Told.of_relay (told : Told consumer channel posts) (relay : Option Relay) :
    Told { consumer with relay } channel posts :=
  ⟨told.responses, told.error, told.progress, told.clean, told.unloaded, told.returned, told.failed⟩

end Told

end CyreneReactor.Runtime.InferenceServer
