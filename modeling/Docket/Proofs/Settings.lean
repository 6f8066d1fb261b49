import Docket.Proofs.DirectReading
import Docket.Proofs.Reading
import Docket.Proofs.Restoring

/-!
Settings read back from their text, from which some members may have been taken out. The members may
come in any order. Those that are there give their fields, and every field whose member was taken
out has its own default.
-/

set_option autoImplicit false
set_option relaxedAutoImplicit false

namespace Docket

namespace Json

open Quoted (Piece)

private theorem keysDiffer_of_scalar {depth : Nat} {t : Tree} {v : Json}
    (h : ofTree? depth t = some v) (hv : Canonical 0 v) : t.keysDiffer := by
  cases t with
  | array items =>
    cases depth with
    | zero => cases h
    | succ depth =>
      obtain ⟨vs, -, rfl⟩ := Option.map_eq_some_iff.mp h
      cases hv
  | object members =>
    cases depth with
    | zero => cases h
    | succ depth =>
      obtain ⟨written, -, rfl⟩ := Option.map_eq_some_iff.mp h
      cases hv
  | null | bool | number | string => rfl

private theorem membersDiffer_of_scalars {depth : Nat} {ts : List (List Piece × Tree)}
    {members : List (String × Json)} (h : ofMembers? depth ts = some members)
    (hscalars : ∀ m ∈ members, Canonical 0 m.2) : Tree.membersDiffer ts := by
  induction ts generalizing members with
  | nil => rfl
  | cons t ts ih =>
    rw [ofMembers?] at h
    split at h
    · rename_i k v rest _ hv hrest
      obtain rfl := Option.some.inj h
      rw [List.forall_mem_cons] at hscalars
      exact Bool.and_eq_true_iff.mpr ⟨keysDiffer_of_scalar hv hscalars.1, ih hrest hscalars.2⟩
    · cases h

/-- The text of an object whose members are scalars shows the record of them, in whatever order they
are written. -/
theorem exists_shows_text {members : List (String × Json)}
    (hnodup : (members.map Prod.fst).Nodup) (hscalars : ∀ m ∈ members, Canonical 0 m.2) :
    ∃ t, Tree.ofText? (Json.object members).text = some t ∧
      Shows ⟨depthLimit, t⟩ (.object (Record.ofList members)) := by
  have hreads : ∀ m ∈ members, ReadsBack 126 m.2 := by
    intro m hm
    exact ((hscalars m hm).mono (Nat.zero_le 126)).readsBack
  obtain ⟨ts, hts, hparse⟩ := parse_object hreads
  refine ⟨.object ts, tree_of_text (hparse _ [] (by omega)), ?_, ?_⟩
  · simp [ofTree?, depthLimit, hts]
  · have hvalues := membersDiffer_of_scalars hts hscalars
    obtain ⟨-, -, -, hnames⟩ := ofMembers?_shows hts hvalues
    have hkeys : (ts.map fun m => Quoted.string? m.1).Nodup := by
      have hsome : (members.map fun m => some m.1) = (members.map Prod.fst).map some := by
        rw [List.map_map]
        rfl
      rw [hnames, hsome]
      exact hnodup.map fun _ _ => Option.some.inj
    exact Bool.and_eq_true_iff.mpr ⟨decide_eq_true hkeys, hvalues⟩

private theorem fields?_perm {members others : List (String × Json)} (h : members.Perm others)
    (hnodup : (members.map Prod.fst).Nodup) (keys : List String) :
    fields? keys (Json.object members) = fields? keys (Json.object others) := by
  have hfield : (fun key => field? key members) = fun key => field? key others :=
    funext (field?_perm h hnodup)
  simp only [fields?, Node.view, hfield]

private theorem present_without (members : List (String × Json)) (keys : List String) :
    present (members.map fun m => (m.1, if m.1 ∈ keys then none else some m.2)) =
      members.filter fun m => m.1 ∉ keys := by
  induction members with
  | nil => rfl
  | cons m members ih =>
    have hsplit :
        present ((m :: members).map fun m => (m.1, if m.1 ∈ keys then none else some m.2)) =
          ((if m.1 ∈ keys then none else some m.2).map fun v => (m.1, v)).toList ++
            members.filter fun m => m.1 ∉ keys := by
      rw [← ih]
      rfl
    rw [hsplit]
    by_cases h : m.1 ∈ keys <;> simp [h]

private theorem defaulted?_part {α : Type} {decode : Json → Option α} {v : Json} {x : α}
    (h : decode v = some x) (otherwise : α) (absent : Prop) [Decidable absent] :
    defaulted? otherwise decode (if absent then none else some v) =
      some (if absent then otherwise else x) := by
  split
  · rfl
  · exact h

end Json

open Json

namespace ClientConfig

variable (c : ClientConfig) (keys : List String)

def reset : ClientConfig where
  host := if "host" ∈ keys then default.host else c.host
  port := if "port" ∈ keys then default.port else c.port
  index := if "index" ∈ keys then default.index else c.index
  udpPort := if "udp_port" ∈ keys then default.udpPort else c.udpPort
  timeoutMs := if "timeout_ms" ∈ keys then default.timeoutMs else c.timeoutMs
  transport := if "transport" ∈ keys then default.transport else c.transport
  engine := if "engine" ∈ keys then default.engine else c.engine

def parts : List (String × Option Json) :=
  c.members.map fun m => (m.1, if m.1 ∈ keys then none else some m.2)

private theorem nodup_members : (c.members.map Prod.fst).Nodup := by
  have hkeys : c.members.map Prod.fst = ClientConfig.keys := rfl
  rw [hkeys]
  decide

private theorem canonical_members : ∀ m ∈ c.members, Canonical 0 m.2 := by
  have hnat : ∀ n, Canonical 0 (Json.ofNat n) := by
    intro n
    rw [Json.ofNat, Number.ofNat]
    split <;> exact .int 0 _ _
  simp only [members, List.forall_mem_cons, List.not_mem_nil, false_implies, implies_true, and_true]
  exact ⟨.string 0 _, hnat _, .string 0 _, hnat _, .int 0 _ _, .string 0 _, .string 0 _⟩

private theorem portOf?_ofNat (n : UInt16) : portOf? (Json.ofNat n.toNat) = some n := by
  rw [portOf?, naturalOf?_ofNat n.toNat_lt (by decide), Option.map_some, UInt16.ofNat_toNat]

private theorem millisecondsOf?_ofUInt64 (n : UInt64) : millisecondsOf?
    (Json.ofUInt64 n) = some n := by
  have hword : n.toNat < wordBound := n.toNat_lt
  have hnat : Json.ofUInt64 n = Json.ofNat n.toNat := by
    rw [Json.ofUInt64, Json.ofNat, Number.ofUInt64, Number.ofNat, dif_pos hword]
  rw [millisecondsOf?, hnat, naturalOf?_ofNat hword (Nat.le_refl _), Option.map_some,
    UInt64.ofNat_toNat]

private theorem nameOf?_transport (t : Transport) :
    nameOf? Transport.ofName? (Json.string t.name) = some t := by
  cases t <;> rfl

private theorem nameOf?_engine (k : EngineKind) :
    nameOf? EngineKind.ofName? (Json.string k.name) = some k := by
  cases k <;> rfl

private theorem decode?_present : decode? (Json.object (present (c.parts keys))) = some
    (c.reset keys) := by
  have hkeys : (c.parts keys).map Prod.fst = ClientConfig.keys := rfl
  have hnodup : ((c.parts keys).map Prod.fst).Nodup := c.nodup_members
  have hfields := fields?_present (c.parts keys) (c.parts keys) hnodup fun _ h => h
  rw [hkeys] at hfields
  simp only [parts, members, List.map_cons, List.map_nil] at hfields
  have hstring : ∀ s, stringOf? (Json.string s) = some s := fun _ => rfl
  simp only [decode?, parts, members, List.map_cons, List.map_nil, hfields,
    defaulted?_part (hstring _), defaulted?_part (portOf?_ofNat _),
    defaulted?_part (millisecondsOf?_ofUInt64 _), defaulted?_part (nameOf?_transport _),
    defaulted?_part (nameOf?_engine _)]
  rfl

private theorem ofText?_left {left : List (String × Json)}
    (hleft : left.Perm (c.members.filter fun m => m.1 ∉ keys)) :
    ofText? (Json.object left).text = some (c.reset keys) := by
  have hnodup : (left.map Prod.fst).Nodup := by
    rw [(hleft.map Prod.fst).nodup_iff]
    exact c.nodup_members.sublist (List.filter_sublist.map Prod.fst)
  have hscalars : ∀ m ∈ left, Canonical 0 m.2 := by
    intro m hm
    exact c.canonical_members m (List.mem_of_mem_filter (hleft.mem_iff.mp hm))
  obtain ⟨t, ht, hshows⟩ := exists_shows_text hnodup hscalars
  have hperm : (Record.ofList left).Perm left := Record.ofList_perm hnodup
  have hpresent : (Record.ofList left).Perm (present (c.parts keys)) := by
    rw [parts, present_without]
    exact hperm.trans hleft
  have hfields := fields?_perm hpresent ((hperm.map Prod.fst).nodup_iff.mpr hnodup)
  rw [ofText?, decodeText?, ht, Option.bind_some, decode?_alike hshows, ← c.decode?_present keys,
    decode?, decode?, hfields]

/-- Settings are read back from their text. If members are taken out of it, in whatever order the
others are written, just the fields of these members are set to their defaults. -/
theorem reads_back_without :
    (∀ (deleted : List String) (left : List (String × Json)),
      left.Perm (c.members.filter fun m => m.1 ∉ deleted) →
        ofText? (Json.object left).text = some (c.reset deleted)) ∧
    ofText? c.text = some c := by
  constructor
  · intro deleted left hleft
    exact c.ofText?_left deleted hleft
  · have hwhole : c.members.filter (fun m => m.1 ∉ ([] : List String)) = c.members := by simp
    have hread := c.ofText?_left [] (.of_eq hwhole.symm)
    exact hread

def farSettings : ClientConfig :=
  ⟨"far \"host\"\n", 9700, "", 9200, 18446744073709551615, .udp, .noop⟩

def portless : List (String × Json) :=
  [("engine", .string "noop"), ("host", .string "far \"host\"\n"), ("index", .string ""),
    ("timeout_ms", .ofUInt64 18446744073709551615), ("transport", .string "udp")]

theorem reads_back_without_ports :
    portless.Perm (farSettings.members.filter fun m => m.1 ∉ ["udp_port", "port"]) ∧
      ofText? (Json.object portless).text =
        some { farSettings with port := 9200, udpPort := 9700 } := by
  have hmembers : farSettings.members.filter (fun m => m.1 ∉ ["udp_port", "port"]) =
      portless.tail ++ portless.take 1 := by rfl
  have hleft : portless.Perm (farSettings.members.filter fun m => m.1 ∉ ["udp_port", "port"]) := by
    rw [hmembers]
    have hrotated : (portless.take 1 ++ portless.tail).Perm (portless.tail ++ portless.take 1) :=
      List.perm_append_comm
    exact hrotated
  exact ⟨hleft, farSettings.reads_back_without.1 ["udp_port", "port"] portless hleft⟩

end ClientConfig

end Docket
