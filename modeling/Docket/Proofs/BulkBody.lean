import Docket.Bulk
import Docket.Proofs.Lines
import Docket.Proofs.Reading

/-!
Bulk requests read back. The text of a request is read as lines, the lines in pairs as strict JSON
texts, and a pair of values as an action. This gives the actions that were written, so no string in
them can forge, split or merge an action.
-/

set_option autoImplicit false
set_option relaxedAutoImplicit false

namespace Docket

open Json (Canonical)

namespace BulkAction

def ofValues? (header document : Json) : Option BulkAction := do
  let target ← header.get? "index"
  let index ← (target.get? "_index").bind Json.string?
  let docType ← (target.get? "_type").bind Json.string?
  let source ← document.record?
  match target.get? "_id" with
  | none => pure ⟨index, docType, none, source⟩
  | some id => id.string?.map fun id => ⟨index, docType, some id, source⟩

def texts (a : BulkAction) : List (List Char) :=
  [a.header.render, Json.render (.object a.source)]

@[simp] theorem ofValues?_header (a : BulkAction) :
    ofValues? a.header (.object a.source) = some a := by
  obtain ⟨index, docType, id, source⟩ := a
  cases id <;> rfl

theorem canonical_header (a : BulkAction) (depth : Nat) : Canonical (depth + 2) a.header := by
  have hid : "_id" < "_index" := by decide
  have htype : "_index" < "_type" := by decide
  apply Canonical.object
  · exact .singleton _
  · intro m hm
    obtain rfl := List.mem_singleton.mp hm
    apply Canonical.object
    · cases a.id with
      | none => exact .cons_cons htype (.singleton _)
      | some id => exact .cons_cons hid (.cons_cons htype (.singleton _))
    · intro n hn
      cases hid : a.id with
      | none =>
        simp only [hid, Option.map_none, Option.toList_none, List.nil_append, List.mem_cons,
          List.not_mem_nil, or_false] at hn
        rcases hn with rfl | rfl <;> exact .string _ _
      | some id =>
        simp only [hid, Option.map_some, Option.toList_some, List.cons_append, List.nil_append,
          List.mem_cons, List.not_mem_nil, or_false] at hn
        rcases hn with rfl | rfl | rfl <;> exact .string _ _

theorem ofText?_header (a : BulkAction) : Json.ofText? a.header.text = some a.header :=
  Json.ofText?_text (a.canonical_header 125)

end BulkAction

namespace Bulk

def ofLines? : List (List Char) → Option (List BulkAction)
  | [] => some []
  | header :: document :: rest => do
    let header ← Json.ofText? (String.ofList header)
    let document ← Json.ofText? (String.ofList document)
    let action ← BulkAction.ofValues? header document
    let actions ← ofLines? rest
    pure (action :: actions)
  | [_] => none

def read? (body : String) : Option (List BulkAction) :=
  (lines? body.toList).bind ofLines?

theorem lines?_bodyChars (actions : List BulkAction) :
    lines? (bodyChars actions) = some (actions.flatMap BulkAction.texts) := by
  induction actions with
  | nil => rfl
  | cons a actions ih =>
    have hheader := Json.newline_not_mem_render a.header
    have hsource := Json.newline_not_mem_render (.object a.source)
    have hbody : bodyChars (a :: actions) = a.header.render ++ '\n' ::
        (Json.render (.object a.source) ++ '\n' :: bodyChars actions) := by
      simp [bodyChars, BulkAction.lines]
    rw [hbody, lines?_cons hheader, lines?_cons hsource, ih]
    rfl

private theorem count_newline_bodyChars (actions : List BulkAction) :
    (bodyChars actions).count '\n' = 2 * actions.length := by
  induction actions with
  | nil => rfl
  | cons a actions ih =>
    have hheader := List.count_eq_zero.mpr (Json.newline_not_mem_render a.header)
    have hsource := List.count_eq_zero.mpr (Json.newline_not_mem_render (.object a.source))
    simp only [bodyChars, List.flatMap_cons, BulkAction.lines, List.count_append, List.count_cons,
      hheader, hsource, List.length_cons] at ih ⊢
    simp [ih]
    omega

private theorem ofLines?_texts {actions : List BulkAction}
    (h : ∀ a ∈ actions, Canonical Json.depthLimit (.object a.source)) :
    ofLines? (actions.flatMap BulkAction.texts) = some actions := by
  induction actions with
  | nil => rfl
  | cons a actions ih =>
    have hheader := a.ofText?_header
    have hsource := Json.ofText?_text (h a (by simp))
    have hrest := ih fun b hb => h b (by simp [hb])
    rw [Json.text] at hheader hsource
    simp [BulkAction.texts, ofLines?, hheader, hsource, hrest]

private theorem read?_eq_ofLines? (actions : List BulkAction) :
    read? (body actions) = ofLines? (actions.flatMap BulkAction.texts) := by
  simp [read?, body, lines?_bodyChars]

/-- A bulk request holds two lines for each action and no other newline, and reads back as the list
of actions, which therefore no other list shares. -/
theorem read?_body (actions : List BulkAction)
    (h : ∀ a ∈ actions, Canonical Json.depthLimit (.object a.source)) :
    (body actions).toList.count '\n' = 2 * actions.length ∧
      lines? (body actions).toList = some (actions.flatMap BulkAction.texts) ∧
      read? (body actions) = some actions ∧
      ∀ others : List BulkAction,
        (∀ a ∈ others, Canonical Json.depthLimit (.object a.source)) →
          body others = body actions → others = actions := by
  have hread := (read?_eq_ofLines? actions).trans (ofLines?_texts h)
  refine ⟨?_, ?_, hread, ?_⟩
  · simpa [body] using count_newline_bodyChars actions
  · simpa [body] using lines?_bodyChars actions
  · intro others hothers heq
    have hother := (read?_eq_ofLines? others).trans (ofLines?_texts hothers)
    rw [heq, hread] at hother
    exact (Option.some.inj hother).symm

/-- Actions whose strings look like ends of lines and like headers. -/
def intruders : List BulkAction :=
  [⟨"logs\n", "event\"", some "\\\"\x7d\n", [
      ("a\n\x7b\"index\":\x7b\x7d\x7d", .array [.number (.int (-7) (by decide)), .string "\r\n"]),
      ("é", .object [("\x7b", .null)])]⟩,
    ⟨"", "\n\n", none, []⟩]

theorem read?_body_intruders :
    (∀ a ∈ intruders, Canonical Json.depthLimit (.object a.source)) ∧
      read? (body intruders) = some intruders := by
  have hsources : ∀ a ∈ intruders, Canonical Json.depthLimit (.object a.source) := by
    intro a ha
    simp only [intruders, List.mem_cons, List.not_mem_nil, or_false] at ha
    rcases ha with rfl | rfl
    · apply Canonical.object
      · exact .cons_cons (by decide) (.singleton _)
      · simp only [List.mem_cons, List.not_mem_nil, or_false]
        rintro m (rfl | rfl)
        · apply Canonical.array
          simp only [List.mem_cons, List.not_mem_nil, or_false]
          rintro v (rfl | rfl)
          · exact .int _ _ _
          · exact .string _ _
        · apply Canonical.object
          · exact .singleton _
          · simp only [List.mem_cons, List.not_mem_nil, or_false]
            rintro n rfl
            exact .null _
    · apply Canonical.object
      · exact .nil
      · simp
  exact ⟨hsources, (read?_body intruders hsources).2.2.1⟩

end Bulk

end Docket
