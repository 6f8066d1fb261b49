import Docket.Proofs.Writing
import Mathlib.Data.List.Forall2

/-!
Calls of a store in memory. A call that fails stores nothing, and every call is counted by its kind,
failed or not.
-/

set_option autoImplicit false
set_option relaxedAutoImplicit false

namespace Docket

section Writes

variable (c : ClientConfig) (net : DatagramNet) (cap : Option Nat)

def InMemory.acceptance (m : InMemory) : Except EngineError Unit :=
  match m.failure with
  | some detail => .error (.network detail)
  | none => .ok ()

theorem InMemory.index_answer (freshId : Nat → String) (m : InMemory) (index docType : String)
    (document : Record) :
    ((Engine.inMemory cap freshId).index index docType document m).1 = m.acceptance := by
  simp only [Engine.inMemory, unlessFailing, acceptance]
  cases m.failure <;> rfl

theorem InMemory.bulk_answer (freshId : Nat → String) (m : InMemory) (actions : List BulkAction) :
    ((Engine.inMemory cap freshId).bulk actions m).1 = m.acceptance := by
  simp only [Engine.inMemory, unlessFailing, acceptance]
  cases m.failure <;> rfl

namespace Post

variable {σ : Type} (engine : Engine σ) (s : σ) (docType : String) (r : Record) (rs : List Record)
  (o : PostOptions)

def datagram (a : BulkAction) : String := Payload.text c.index a.docType a.source

def outcome (a : BulkAction) (answer : Except EngineError Unit) : Posted :=
  if r.isEmpty then nothing
  else
    match c.transport with
    | .udp => ofSending c (net.sendTo c.host c.udpPort (datagram c a))
    | .http =>
      match answer with
      | .ok () => nothing
      | .error e => ⟨false, [notStored c a.docType e], []⟩

theorem single_outcome (t : Binary64) :
    let a := document c docType r o t
    (single c engine net docType r o t s).1 =
      outcome c net r a (engine.index a.index a.docType a.source s).1 := by
  simp only [single, outcome, datagram, document]
  split
  · rfl
  · cases c.transport with
    | udp => rfl
    | http =>
      cases engine.index c.index ((prepare o r t).1.getD docType) (prepare o r t).2 s with
      | mk answer s => cases answer <;> rfl

variable {c r} in
theorem single_of_udp (hudp : c.transport = .udp) (hr : r ≠ []) (t : Binary64) :
    single c engine net docType r o t s =
      (ofSending c (net.sendTo c.host c.udpPort (datagram c (document c docType r o t))), s) := by
  have hnonempty : r.isEmpty = false := by simpa using hr
  simp only [single, hnonempty, hudp]
  rfl

variable {c r} in
theorem single_of_http (hhttp : c.transport = .http) (hr : r ≠ []) (t : Binary64) :
    let a := document c docType r o t
    let posted := single c engine net docType r o t s
    posted.2 = (engine.index c.index a.docType a.source s).2 ∧ posted.1.attempts = [] := by
  intro a posted
  have hnonempty : r.isEmpty = false := by simpa using hr
  simp only [posted, single, a, document, hnonempty, hhttp]
  cases engine.index c.index ((prepare o r t).1.getD docType) (prepare o r t).2 s with
  | mk answer s => cases answer <;> exact ⟨rfl, rfl⟩

def outcomeOfMany (answer : Except EngineError Unit) : Posted :=
  match answer with
  | .ok () => nothing
  | .error e => if rs.isEmpty then nothing else ⟨false, [notAllStored c rs.length e], []⟩

theorem attempts_outcomeOfMany (answer : Except EngineError Unit) :
    (outcomeOfMany c rs answer).attempts = [] := by
  unfold outcomeOfMany
  split
  · rfl
  · split <;> rfl

theorem many_outcome (now : Nat → Binary64) :
    (many c engine rs o now s).1 = outcomeOfMany c rs (engine.bulk (actions c o now rs) s).1 := by
  simp only [many, outcomeOfMany]
  split
  · split <;> rfl
  · cases engine.bulk (actions c o now rs) s with
    | mk answer s => cases answer <;> rfl

end Post

end Writes

section Failures

def Answer.Fails : Answer → Prop
  | .posted accepted => accepted = false
  | .queried result => ∃ e, result = .error e
  | .settings _ => False
  | .existence result => ∃ e, result = .error e
  | .written result => ∃ e, result = .error e
  | .found result => ∃ e, result = .error e
  | .scanned result => ∃ e, result = .error e

variable (c : ClientConfig) (net : DatagramNet) (cap : Option Nat) (freshId : Nat → String)
  (now : Nat → Binary64) {m : InMemory} {step : Step}

private theorem InMemoryStep.requests_of_fails (hfailure : m.failure = none)
    (hfails : (Client.run ⟨c, .inMemory cap freshId, net⟩ now step m).1.answer.Fails) :
    requests c now (.client step) = [] := by
  have haccepted : m.acceptance = .ok () := by rw [InMemory.acceptance, hfailure]
  cases step with
  | post docType r o =>
    simp only [Client.run, Answer.Fails, Post.single_outcome, InMemory.index_answer, haccepted,
      Post.outcome] at hfails
    split at hfails
    · rename_i hempty
      rw [requests, if_pos (.inl hempty)]
    · cases htransport : c.transport with
      | udp => rw [requests, if_pos (.inr htransport)]
      | http => simp [htransport, Post.nothing] at hfails
  | bulkPost rs o =>
    simp [Client.run, Answer.Fails, Post.many_outcome, InMemory.bulk_answer, haccepted,
      Post.outcomeOfMany, Post.nothing] at hfails
  | index index docType document =>
    simp [Client.run, Answer.Fails, InMemory.index_answer, haccepted] at hfails
  | bulk actions =>
    simp [Client.run, Answer.Fails, InMemory.bulk_answer, haccepted] at hfails
  | _ => rfl

theorem Client.run_failed
    (h : m.failure.isSome ∨
      (Client.run ⟨c, .inMemory cap freshId, net⟩ now step m).1.answer.Fails) :
    (Client.run ⟨c, .inMemory cap freshId, net⟩ now step m).2.store = m.store := by
  have hcontents : (Client.run ⟨c, .inMemory cap freshId, net⟩ now step m).2.SameContents
      (m.afterWrites freshId (InMemoryStep.requests c now (.client step))) :=
    InMemory.run_sameContents freshId cap c net now m (.client step)
  rw [hcontents.store]
  cases hfailure : m.failure with
  | some detail => simp [InMemory.afterWrites, hfailure]
  | none =>
    have hfails := h.resolve_left (by simp [hfailure])
    rw [InMemoryStep.requests_of_fails c net cap freshId now hfailure hfails,
      InMemory.afterWrites_nil]

end Failures

section Counting

variable {base counts : CallCounts} {calls : List EngineCall}

structure CallCounts.Count (base counts : CallCounts) (calls : List EngineCall) : Prop where
  indexExists : counts.indexExists = base.indexExists + calls.countP (· matches .indexExists ..)
  index : counts.index = base.index + calls.countP (· matches .index ..)
  search : counts.search = base.search + calls.countP (· matches .search ..)
  bulk : counts.bulk = base.bulk + calls.countP (· matches .bulk ..)
  scan : counts.scan = base.scan + calls.countP (· matches .scan ..)

/-- A state, and the same state with a record of the calls that its counters have counted. -/
def CallCounts.Counted (base : CallCounts) (m : InMemory) (s : InMemory × List EngineCall) : Prop :=
  s.1 = m ∧ base.Count m.calls s.2

def CallCounts.after (counts : CallCounts) : EngineCall → CallCounts
  | .indexExists .. => { counts with indexExists := counts.indexExists + 1 }
  | .index .. => { counts with index := counts.index + 1 }
  | .search .. => { counts with search := counts.search + 1 }
  | .bulk .. => { counts with bulk := counts.bulk + 1 }
  | .scan .. => { counts with scan := counts.scan + 1 }

private theorem CallCounts.Count.start (base : CallCounts) : base.Count base [] :=
    ⟨rfl, rfl, rfl, rfl, rfl⟩

private theorem CallCounts.Count.call (h : base.Count counts calls) (call : EngineCall) :
    base.Count (counts.after call) (calls ++ [call]) := by
  obtain ⟨hexists, hindex, hsearch, hbulk, hscan⟩ := h
  cases call <;> constructor <;>
    simp [after, List.countP_append, hexists, hindex, hsearch, hbulk, hscan, Nat.add_assoc]

variable (freshId : Nat → String) (cap : Option Nat) {m : InMemory}

private theorem InMemory.calls_write (m : InMemory) (index docType : String) (id : Option String)
    (source : Record) : (m.write freshId index docType id source).calls = m.calls := by
  cases id <;> rfl

private theorem InMemory.calls_writeAll (m : InMemory) (actions : List BulkAction) :
    (m.writeAll freshId actions).calls = m.calls := by
  induction actions generalizing m with
  | nil => rfl
  | cons a actions ih =>
    have hrest := ih (m.write freshId a.index a.docType a.id a.source)
    rwa [calls_write] at hrest

private theorem InMemory.calls_unlessFailing {α : Type}
    {run : InMemory → Except EngineError α × InMemory} (hrun : (run m).2.calls = m.calls) :
    (m.unlessFailing run).2.calls = m.calls := by
  unfold unlessFailing
  split
  · rfl
  · exact hrun

private theorem Engine.inMemory_counts (base : CallCounts) :
    (Engine.inMemory cap freshId).Agrees (Engine.inMemory cap freshId).recorded base.Counted := by
  -- An operation counts before it may be refused, so an injected failure makes no difference.
  have hcounted : ∀ {α : Type} {s : InMemory × List EngineCall} (call : EngineCall)
      {run : InMemory → α × InMemory}, (run s.1).2.calls = s.1.calls.after call →
      base.Count s.1.calls s.2 →
      Agree base.Counted (run s.1) (record call run s) := by
    intro α s call run hcalls hs
    refine ⟨rfl, rfl, ?_⟩
    rw [hcalls]
    exact hs.call call
  constructor
  · constructor
    · rintro _ s ⟨rfl, hs⟩ index
      exact hcounted (.indexExists index) (InMemory.calls_unlessFailing rfl) hs
    · rintro _ s ⟨rfl, hs⟩ index body
      exact hcounted (.search index body) (InMemory.calls_unlessFailing rfl) hs
    · rintro _ s ⟨rfl, hs⟩ index body batch limit
      exact hcounted (.scan index body batch) (InMemory.calls_unlessFailing rfl) hs
  · rintro _ s ⟨rfl, hs⟩ index docType document
    exact hcounted (.index index docType document)
      (InMemory.calls_unlessFailing (InMemory.calls_write freshId _ _ _ _ _)) hs
  · rintro _ s ⟨rfl, hs⟩ actions
    exact hcounted (.bulk actions)
      (InMemory.calls_unlessFailing (InMemory.calls_writeAll freshId _ _)) hs

end Counting

section Recording

namespace Session

variable {σ τ ι α : Type} {f : Nat → ι → σ → Outcome α × σ} {g : Nat → ι → τ → Outcome α × τ}
  {R : σ → τ → Prop}

private theorem run_agree (hstep : ∀ {s t} number i, R s t → Agree R (f number i s) (g number i t))
    (steps : List ι) (number : Nat) {s : σ} {t : τ} (h : R s t) :
    List.Forall₂ (Agree R) (run f number steps s) (run g number steps t) := by
  induction steps generalizing number s t with
  | nil => exact .nil
  | cons i steps ih =>
    have hhead := hstep number i h
    exact .cons hhead (ih (number + 1) hhead.2)

end Session

def InMemory.runRecorded (c : Client InMemory) (now : Nat → Binary64) (step : InMemoryStep)
    (s : InMemory × List EngineCall) : Outcome InMemoryAnswer × (InMemory × List EngineCall) :=
  match step with
  | .client step =>
    let (outcome, s) := Client.run ⟨c.config, c.engine.recorded, c.net⟩ now step s
    (⟨.client outcome.answer, outcome.log, outcome.attempts⟩, s)
  | step =>
    let (outcome, m) := s.1.run c now step
    (outcome, (m, s.2))

def Session.recordedInMemory (c : Client InMemory) (clock : Nat → Nat → Binary64)
    (steps : List InMemoryStep) (m : InMemory) :
    List (Outcome InMemoryAnswer × (InMemory × List EngineCall)) :=
  run (fun n step s => InMemory.runRecorded c (clock n) step s) 0 steps (m, [])

variable (c : ClientConfig) (net : DatagramNet) (cap : Option Nat) (freshId : Nat → String)

private theorem InMemory.run_recorded (base : CallCounts) (now : Nat → Binary64)
    (step : InMemoryStep) {m : InMemory} {s : InMemory × List EngineCall} (h : base.Counted m s) :
    Agree base.Counted (m.run ⟨c, .inMemory cap freshId, net⟩ now step)
      (runRecorded ⟨c, .inMemory cap freshId, net⟩ now step s) := by
  cases step with
  | client step =>
    have hrun := Client.run_agree (Engine.inMemory_counts freshId cap base) h c net now step
    exact hrun.map fun outcome =>
      (⟨.client outcome.answer, outcome.log, outcome.attempts⟩ : Outcome InMemoryAnswer)
  | _ =>
    obtain ⟨rfl, hs⟩ := h
    exact ⟨rfl, rfl, hs⟩

/-- Recording the calls changes nothing, and at every point the counters have counted them. -/
theorem Session.recorded_counts (clock : Nat → Nat → Binary64) (steps : List InMemoryStep)
    (m : InMemory) :
    List.Forall₂ (Agree m.calls.Counted) (inMemory ⟨c, .inMemory cap freshId, net⟩ clock steps m)
      (recordedInMemory ⟨c, .inMemory cap freshId, net⟩ clock steps m) := by
  refine run_agree ?_ steps 0 ⟨rfl, .start m.calls⟩
  intro n s number step h
  exact InMemory.run_recorded c net cap freshId m.calls (clock number) step h

end Recording

end Docket
