import CyreneReactor.Data.JsonText
import CyreneReactor.ModelImports.Store

namespace CyreneReactor.ModelImports

/-! Requests for an import, and the canonical JSON body their digest is taken of. -/

structure CreateModelImportRequest where
  name : String
  servingBindingId : String
  source : ModelImportSource
  credentialRef : Option String
  trustRemoteCode : Bool
deriving DecidableEq

open JsonText

def ModelImportSourceKind.value : ModelImportSourceKind → String
  | .huggingFace => "HUGGING_FACE"
  | .localPath => "LOCAL_PATH"

def member (name text : String) : List Char := literal name ++ ':' :: literal text

/-- A member that `exclude_none` leaves out when it is absent. -/
def optionalMember (name : String) : Option String → List Char
  | none => []
  | some text => ',' :: member name text

def sourceMembers (source : ModelImportSource) (rest : List Char) : List Char :=
  member "kind" (ModelImportSourceKind.value source.kind) ++
    (optionalMember "repository" source.repository ++
      (optionalMember "revision" source.revision ++
        (optionalMember "path" source.path ++ '}' :: rest)))

/-- `model_dump_json(by_alias=True, exclude_none=True)` -/
def CreateModelImportRequest.modelDumpJson (request : CreateModelImportRequest) : String :=
  String.ofList ('{' :: (member "name" request.name ++
    (',' :: (member "servingBindingId" request.servingBindingId ++
      (',' :: (literal "source" ++ (':' :: '{' :: sourceMembers request.source
        (optionalMember "credentialRef" request.credentialRef ++
          (',' :: (literal "trustRemoteCode" ++
            (':' :: ((toString request.trustRemoteCode).toList ++ ['}']))))))))))))

theorem member_inj {name left right : String} {afterLeft afterRight : List Char}
    (same : member name left ++ afterLeft = member name right ++ afterRight) :
    left = right ∧ afterLeft = afterRight := by
  simp only [member, List.append_assoc, List.cons_append] at same
  have texts := (literal_append_inj same).2
  simp only [List.cons.injEq, true_and] at texts
  exact literal_append_inj texts

/-- What follows a member does not start like the member. -/
def NotMember (name : String) (rest : List Char) : Prop :=
  ∀ text after, rest ≠ ',' :: (member name text ++ after)

theorem optionalMember_inj {name : String} {left right : Option String}
    {afterLeft afterRight : List Char} (apartLeft : NotMember name afterLeft)
    (apartRight : NotMember name afterRight)
    (same : optionalMember name left ++ afterLeft = optionalMember name right ++ afterRight) :
    left = right ∧ afterLeft = afterRight := by
  cases left with
  | none =>
      cases right with
      | none => exact ⟨rfl, same⟩
      | some text => exact absurd same (apartLeft text afterRight)
  | some text =>
      cases right with
      | none => exact absurd same.symm (apartRight text afterLeft)
      | some other =>
          simp only [optionalMember, List.cons_append, List.cons.injEq, true_and] at same
          obtain ⟨rfl, after⟩ := member_inj same
          exact ⟨rfl, after⟩

theorem notMember_brace (name : String) (rest : List Char) : NotMember name ('}' :: rest) := by
  intro text after same
  simp at same

theorem notMember_literal {name other : String} (different : other ≠ name) (rest : List Char) :
    NotMember name (',' :: (literal other ++ rest)) := by
  intro text after same
  simp only [member, List.append_assoc, List.cons.injEq, true_and] at same
  exact different (literal_append_inj same).1

theorem notMember_optional {name other : String} (different : other ≠ name)
    {rest : List Char} (apart : NotMember name rest) (value : Option String) :
    NotMember name (optionalMember other value ++ rest) := by
  cases value with
  | none => exact apart
  | some text =>
      have shape : optionalMember other (some text) ++ rest =
          ',' :: (literal other ++ (':' :: literal text ++ rest)) := by
        simp [optionalMember, member]
      rw [shape]
      exact notMember_literal different _

theorem sourceMembers_inj {left right : ModelImportSource} {afterLeft afterRight : List Char}
    (same : sourceMembers left afterLeft = sourceMembers right afterRight) :
    left = right ∧ afterLeft = afterRight := by
  obtain ⟨kinds, rest⟩ := member_inj same
  obtain ⟨repositories, rest⟩ := optionalMember_inj
    (notMember_optional (by decide) (notMember_optional (by decide) (notMember_brace _ _) _) _)
    (notMember_optional (by decide) (notMember_optional (by decide) (notMember_brace _ _) _) _)
    rest
  obtain ⟨revisions, rest⟩ := optionalMember_inj
    (notMember_optional (by decide) (notMember_brace _ _) _)
    (notMember_optional (by decide) (notMember_brace _ _) _) rest
  obtain ⟨paths, rest⟩ := optionalMember_inj (notMember_brace _ _) (notMember_brace _ _) rest
  simp only [List.cons.injEq, true_and] at rest
  refine ⟨?_, rest⟩
  obtain ⟨leftKind, _, _, _, _⟩ := left
  obtain ⟨rightKind, _, _, _, _⟩ := right
  simp only at kinds repositories revisions paths
  subst repositories revisions paths
  have sameKind : leftKind = rightKind := by
    cases leftKind <;> cases rightKind <;> first | rfl | exact absurd kinds (by decide)
  subst sameKind
  rfl

/-- Different requests have different bodies. -/
theorem CreateModelImportRequest.modelDumpJson_injective :
    Function.Injective CreateModelImportRequest.modelDumpJson := by
  intro left right same
  have chars := String.ofList_inj.mp same
  simp only [List.cons.injEq, true_and] at chars
  obtain ⟨names, rest⟩ := member_inj chars
  simp only [List.cons.injEq, true_and] at rest
  obtain ⟨bindings, rest⟩ := member_inj rest
  simp only [List.cons.injEq, true_and] at rest
  have rest := (literal_append_inj rest).2
  simp only [List.cons.injEq, true_and] at rest
  obtain ⟨sources, rest⟩ := sourceMembers_inj rest
  obtain ⟨credentials, rest⟩ := optionalMember_inj (notMember_literal (by decide) _)
    (notMember_literal (by decide) _) rest
  simp only [List.cons.injEq, true_and] at rest
  have flags := (literal_append_inj rest).2
  clear rest
  simp only [List.cons.injEq, true_and] at flags
  obtain ⟨_, _, _, _, leftTrust⟩ := left
  obtain ⟨_, _, _, _, rightTrust⟩ := right
  simp only at names bindings sources credentials flags
  subst names bindings sources credentials
  have trusts : leftTrust = rightTrust := by
    cases leftTrust <;> cases rightTrust <;> first | rfl | exact absurd flags (by decide)
  subst trusts
  rfl

end CyreneReactor.ModelImports
