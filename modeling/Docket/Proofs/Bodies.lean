import Docket.Proofs.Record
import Docket.Proofs.Searching

/-!
What the body of a query tells of the query. A store reads the parts of a query back from its body,
so two queries with one body agree in all that a body shows: in the constraints that say something,
the projection, the page size and the sort keys. The bodies of the recount and of the stream are the
body of the first page with another size, and without size and sort keys.
-/

set_option autoImplicit false
set_option relaxedAutoImplicit false

namespace Docket

namespace Constraint

private theorem toClause_injective : Function.Injective toClause := by
  intro c d h
  cases c <;> cases d <;> simp_all [toClause]

private theorem filterMap_ofJson?_clauses (cs : List Constraint) :
    (cs.filterMap clause?).filterMap Clause.ofJson? = (rendered cs).map toClause := by
  induction cs with
  | nil => rfl
  | cons c cs ih =>
    cases hc : c.clause? with
    | none =>
      rw [List.filterMap_cons_none hc, ih, rendered_cons_of_trivial ((clause?_eq_none_iff c).mp hc)]
    | some clause =>
      have hsays : c.isTrivial = false := by
        rw [← Bool.not_eq_true, ← clause?_eq_none_iff, hc]
        simp
      rw [List.filterMap_cons_some hc, List.filterMap_cons_some (ofJson?_clause hc), ih,
        rendered_cons_of_not_trivial hsays, List.map_cons]

private theorem filterMap_clause?_rendered (cs : List Constraint) :
    (rendered cs).filterMap clause? = cs.filterMap clause? := by
  rw [rendered, List.filterMap_filter]
  refine List.filterMap_congr fun c _ => ?_
  cases hc : c.isTrivial with
  | true => simp [(clause?_eq_none_iff c).mpr hc]
  | false => simp

private theorem clauses_eq_iff {cs ds : List Constraint} :
    cs.filterMap clause? = ds.filterMap clause? ↔ rendered cs = rendered ds := by
  constructor
  · intro h
    have hread : (rendered cs).map toClause = (rendered ds).map toClause := by
      rw [← filterMap_ofJson?_clauses, h, filterMap_ofJson?_clauses]
    exact toClause_injective.list_map hread
  · intro h
    rw [← filterMap_clause?_rendered cs, h, filterMap_clause?_rendered]

end Constraint

namespace Query

variable {q r : Query}

private theorem sort_eq_of_body (h : q.body = r.body) : q.sort = r.sort := by
  have hread : q.sort.map (fun ks => Json.array (ks.map SortKey.toJson)) =
      r.sort.map fun ks => Json.array (ks.map SortKey.toJson) := by
    rw [← get?_sort_sizedBody q q.size, ← get?_sort_sizedBody r r.size]
    exact congrArg (Json.get? "sort") h
  have hkeys : Function.Injective fun ks : List SortKey => Json.array (ks.map SortKey.toJson) := by
    intro ks ls hkl
    rw [← filterMap_sortKey? ks, Json.array.inj hkl, filterMap_sortKey?]
  exact Option.map_injective hkeys hread

private theorem body_eq_of_parts (hclauses : q.clauses = r.clauses) (hfields : q.fields = r.fields)
    (hsize : q.size = r.size) (hsort : q.sort = r.sort) : q.body = r.body := by
  simp only [body, sizedBody, fieldsMember, selection, sortMember, hclauses, hfields, hsize, hsort]

/-- Two queries have the same body exactly when they have the same constraints that say something,
in the same order, and the same projection, page size and sort keys. The body of the recount is this
body with another size, and the body of the stream is it without size and sort keys. -/
theorem body_eq_iff (q r : Query) :
    (q.body = r.body ↔
      Constraint.rendered q.constraints = Constraint.rendered r.constraints ∧
        q.fields = r.fields ∧ q.size = r.size ∧ q.sort = r.sort) ∧
    ∃ members : Record, q.body = .object members ∧
      q.countBody = .object (Record.insert "size" (.ofNat 1) members) ∧
      q.scanBody = .object ((members.erase "size").erase "sort") := by
  constructor
  · rw [← Constraint.clauses_eq_iff]
    constructor
    · intro h
      have hclauses : (.ok q.clauses : Except EngineError (List Json)) = .ok r.clauses := by
        rw [← clauses_sizedBody q q.size, ← clauses_sizedBody r r.size]
        exact congrArg SearchBody.clauses h
      have hfields : q.fields = r.fields := by
        rw [← fields?_sizedBody q q.size, ← fields?_sizedBody r r.size]
        exact congrArg SearchBody.fields? h
      have hsize : q.size.toNat = r.size.toNat := by
        rw [← size_sizedBody q q.size, ← size_sizedBody r r.size]
        exact congrArg SearchBody.size h
      exact ⟨Except.ok.inj hclauses, hfields, UInt64.toNat_inj.mp hsize, sort_eq_of_body h⟩
    · rintro ⟨hclauses, hfields, hsize, hsort⟩
      exact body_eq_of_parts hclauses hfields hsize hsort
  · refine ⟨_, rfl, ?_, ?_⟩
    · obtain ⟨fields, _, _, sort, _⟩ := q
      cases fields <;> cases sort <;> rfl
    · obtain ⟨fields, _, _, sort, _⟩ := q
      cases fields <;> cases sort <;> rfl

end Query

end Docket
