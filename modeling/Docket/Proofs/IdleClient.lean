import Docket.Proofs.Calls

/-!
Clients that connect to no store. Records that go to the store are accepted and dropped, queries
find no index, and no request is made. Datagrams do not go to the store: they are sent all the same,
and one that no address takes is a record that is not accepted.
-/

set_option autoImplicit false
set_option relaxedAutoImplicit false

namespace Docket

section Steps

variable (c : ClientConfig) (net : DatagramNet) (now : Nat → Binary64)

def Step.withoutStore : Step → Outcome Answer
  | .post docType r o =>
    let p := Post.outcome c net r (Post.document c docType r o (now 0)) (.ok ())
    ⟨.posted p.accepted, p.log, p.attempts⟩
  | .bulkPost _ _ => { answer := .posted true }
  | .query calls =>
    match (QueryBuilder.ofCalls calls).compose with
    | .error e => { answer := .queried (.error e) }
    | .ok _ => { answer := .queried (.ok none), log := [Fetch.missingIndex c] }
  | .execute _ => { answer := .queried (.ok none), log := [Fetch.missingIndex c] }
  | .settings => { answer := .settings c }
  | .indexExists _ => { answer := .existence (.ok false) }
  | .index _ _ _ => { answer := .written (.ok ()) }
  | .search _ _ => { answer := .found (.ok .empty) }
  | .bulk _ => { answer := .written (.ok ()) }
  | .scan _ _ _ _ => { answer := .scanned (.ok []) }

variable {σ : Type}

private theorem Post.single_idle (docType : String) (r : Record) (o : PostOptions) (t : Binary64)
    (s : σ) :
    single c .idle net docType r o t s =
      (outcome c net r (document c docType r o t) (.ok ()), s) := by
  simp only [single, outcome, datagram, document]
  split
  · rfl
  · cases c.transport <;> rfl

private theorem Post.many_idle (rs : List Record) (o : PostOptions) (s : σ) :
    many c .idle rs o now s = (nothing, s) := by
  rw [many]
  split <;> rfl

private theorem Client.run_idle (step : Step) (s : σ) :
    run ⟨c, .idle, net⟩ now step s = (step.withoutStore c net now, s) := by
  cases step with
  | post docType r o => simp only [run, Post.single_idle, Step.withoutStore]
  | bulkPost rs o => simp only [run, Post.many_idle, Post.nothing, Step.withoutStore]
  | query calls =>
    simp only [run, Fetch.query, Step.withoutStore]
    cases (QueryBuilder.ofCalls calls).compose <;> rfl
  | _ => rfl

section Outcomes

variable {docType : String} {r : Record} {o : PostOptions} {step : Step}

private theorem QueryBuilder.invalidQuery_of_compose {b : QueryBuilder} {e : QueryError}
    (h : b.compose = .error e) : ∃ reason, e = .invalidQuery reason := by
  unfold compose at h
  split at h
  · exact ⟨_, (Except.error.inj h).symm⟩
  · cases h

private theorem Step.answer_query_withoutStore (calls : List QueryBuilder.Call) :
    ((query calls).withoutStore c net now).answer =
      .queried ((QueryBuilder.ofCalls calls).compose.map fun _ => none) := by
  rw [withoutStore]
  cases (QueryBuilder.ofCalls calls).compose <;> rfl

private theorem Step.post_withoutStore_of_http (h : r = [] ∨ c.transport = .http) :
    (post docType r o).withoutStore c net now = { answer := .posted true } := by
  have hnothing : Post.outcome c net r (Post.document c docType r o (now 0)) (.ok ()) =
      Post.nothing := by
    rw [Post.outcome]
    split
    · rfl
    · rename_i hr
      rw [h.resolve_left (by simpa using hr)]
  rw [withoutStore, hnothing]
  rfl

private theorem Step.post_withoutStore_of_udp (hr : r ≠ []) (hudp : c.transport = .udp) :
    let sent := net.sendTo c.host c.udpPort
      (Post.datagram c (Post.document c docType r o (now 0)))
    let outcome := (post docType r o).withoutStore c net now
    outcome.attempts = sent.2 ∧ (outcome.answer = .posted true ∧ sent.1 = .ok () ∨
      outcome.answer = .posted false ∧ ∃ e, sent.1 = .error e) := by
  intro sent outcome
  have hposted : Post.outcome c net r (Post.document c docType r o (now 0)) (.ok ()) =
      Post.ofSending c sent := by
    rw [Post.outcome, if_neg (by simpa using hr), hudp]
  simp only [outcome, withoutStore, hposted]
  rcases sent with ⟨⟨⟩ | ⟨⟩, attempts⟩
  · exact ⟨rfl, .inr ⟨rfl, _, rfl⟩⟩
  · exact ⟨rfl, .inl ⟨rfl, rfl⟩⟩

private theorem Step.exists_post_of_attempts (h : (step.withoutStore c net now).attempts ≠ []) :
    c.transport = .udp ∧ ∃ docType r o, step = post docType r o ∧ r ≠ [] := by
  cases step with
  | post docType r o =>
    -- Otherwise the record would be accepted without effect.
    have hsends : ¬ (r = [] ∨ c.transport = .http) := by
      intro haccepted
      rw [post_withoutStore_of_http c net now haccepted] at h
      exact h rfl
    rw [not_or] at hsends
    refine ⟨?_, docType, r, o, rfl, hsends.1⟩
    cases htransport : c.transport with
    | udp => rfl
    | http => exact absurd htransport hsends.2
  | query calls =>
    simp only [withoutStore] at h
    split at h <;> exact absurd rfl h
  | _ => exact absurd rfl h

end Outcomes

end Steps

namespace Session

variable {σ ι α : Type} {step : Nat → ι → σ → Outcome α × σ}

private theorem final_of_unchanged (hstep : ∀ number i s, (step number i s).2 = s) (number : Nat)
    (steps : List ι) (s : σ) : final step number steps s = s := by
  induction steps generalizing number with
  | nil => rfl
  | cons i steps ih => rw [final, hstep, ih]

private theorem getElem?_ofClient_idle (c : ClientConfig) (net : DatagramNet)
    (clock : Nat → Nat → Binary64) (steps : List Step) (s : σ) (k : Nat) :
    (ofClient ⟨c, .idle, net⟩ clock steps s)[k]? =
      steps[k]?.map fun step => (step.withoutStore c net (clock k), s) := by
  have hunchanged : ∀ number (step : Step) (s : σ),
      (Client.run ⟨c, .idle, net⟩ (clock number) step s).2 = s := by
    intro number step s
    rw [Client.run_idle]
  rw [ofClient, getElem?_run, final_of_unchanged hunchanged, Nat.zero_add]
  simp only [Client.run_idle]

end Session

section Connected

variable (c : ClientConfig) (hosts : Hosts) (net : DatagramNet) (clock : Nat → Nat → Binary64)
  (steps : List Step) (w : Wire)

/-- A client that is set to connect to no store makes no request, whatever its steps are. Bulk
requests are accepted; queries that can be composed find no index. A record is accepted without
effect, unless it is to go as a datagram: then the datagram is sent to the host of the settings as
ever, and the record is accepted exactly when some address takes it. Nothing else sends datagrams.
-/
theorem Session.noop_client (hnoop : c.engine = .noop) (k : Nat) (outcome : Outcome Answer)
    (after : Wire)
    (hrun : (ofClient (.connect c hosts net) clock steps w)[k]? = some (outcome, after)) :
    after = w ∧ ∃ step, steps[k]? = some step ∧
      (∀ rs o, step = .bulkPost rs o → outcome = { answer := .posted true }) ∧
      (∀ q, step = .execute q → outcome.answer = .queried (.ok none)) ∧
      (∀ calls, step = .query calls →
        outcome.answer = .queried ((QueryBuilder.ofCalls calls).compose.map fun _ => none) ∧
          ∀ e, (QueryBuilder.ofCalls calls).compose = .error e → ∃ reason, e = .invalidQuery reason) ∧
      (∀ docType r o, step = .post docType r o → r = [] ∨ c.transport = .http →
        outcome = { answer := .posted true }) ∧
      (∀ docType r o, step = .post docType r o → r ≠ [] → c.transport = .udp →
        let sent := net.sendTo c.host c.udpPort
          (Post.datagram c (Post.document c docType r o (clock k 0)))
        outcome.attempts = sent.2 ∧
          (outcome.answer = .posted true ∧ sent.1 = .ok () ∨
            outcome.answer = .posted false ∧ ∃ e, sent.1 = .error e)) ∧
      (outcome.attempts ≠ [] →
        c.transport = .udp ∧ ∃ docType r o, step = .post docType r o ∧ r ≠ []) := by
  have hconnect : Client.connect c hosts net = ⟨c, .idle, net⟩ := by
    simp only [Client.connect, ClientConfig.store, hnoop]
  rw [hconnect, getElem?_ofClient_idle, Option.map_eq_some_iff] at hrun
  obtain ⟨step, hstep, heq⟩ := hrun
  obtain ⟨rfl, rfl⟩ := Prod.mk.inj heq
  refine ⟨rfl, step, hstep, ?_, ?_, ?_, ?_, ?_, Step.exists_post_of_attempts c net (clock k)⟩
  · rintro rs o rfl
    rfl
  · rintro q rfl
    rfl
  · rintro calls rfl
    exact ⟨Step.answer_query_withoutStore c net (clock k) calls,
      fun e => QueryBuilder.invalidQuery_of_compose⟩
  · rintro docType r o rfl haccepted
    exact Step.post_withoutStore_of_http c net (clock k) haccepted
  · rintro docType r o rfl hr hudp
    exact Step.post_withoutStore_of_udp c net (clock k) hr hudp

def datagramsOnly : ClientConfig := { ClientConfig.default with transport := .udp, engine := .noop }

def halfReachable : DatagramNet where
  resolve _ := .ok [.v4 10 0 0 1, .v4 10 0 0 2]
  call _
    | .bind _ => .ok ()
    | .send target _ => if target.address = .v4 10 0 0 1 then .error .unreachable else .ok ()

def report : List Step :=
  [.bulkPost [[("n", .ofNat 1)]] {}, .post "job" [("n", .ofNat 1)] { stamp := false }]

theorem Session.noop_client_sends :
    datagramsOnly.engine = .noop ∧ ∃ outcome : Outcome Answer,
      (ofClient (.connect datagramsOnly ⟨[]⟩ halfReachable) (fun _ _ => .ofInt 0) report
        ⟨[], []⟩)[1]? = some (outcome, ⟨[], []⟩) ∧
      outcome.answer = .posted true ∧ outcome.attempts.map Attempt.sent = [false, true] := by
  refine ⟨rfl, _, rfl, ?_⟩
  obtain ⟨-, step, hstep, -, -, -, -, hdatagram, -⟩ := noop_client datagramsOnly ⟨[]⟩ halfReachable
    (fun _ _ => .ofInt 0) report ⟨[], []⟩ rfl 1 _ _ rfl
  obtain ⟨hattempts, ⟨haccepted, -⟩ | ⟨-, e, hrefused⟩⟩ :=
    hdatagram "job" [("n", .ofNat 1)] { stamp := false } (Option.some.inj hstep).symm (by simp) rfl
  · exact ⟨haccepted, congrArg (List.map Attempt.sent) hattempts⟩
  · cases hrefused

/-- Not every record is accepted without a store: its host need not be known. -/
theorem Session.noop_client_may_refuse :
    ¬ ∀ (c : ClientConfig) (hosts : Hosts) (net : DatagramNet) (clock : Nat → Nat → Binary64)
      (steps : List Step) (w : Wire) (k : Nat) (outcome : Outcome Answer) (after : Wire),
      c.engine = .noop →
      (ofClient (.connect c hosts net) clock steps w)[k]? = some (outcome, after) →
      (∀ docType r o, steps[k]? = some (.post docType r o) → outcome.answer = .posted true) ∧
        after.taken = w.taken ∧ outcome.attempts = [] := by
  intro hclaim
  obtain ⟨haccepts, -⟩ := hclaim datagramsOnly ⟨[]⟩
    ⟨fun host => .error (.unresolved host), fun _ _ => .ok ()⟩ (fun _ _ => .ofInt 0) report
    ⟨[], []⟩ 1 _ _ rfl rfl
  cases haccepts "job" [("n", .ofNat 1)] { stamp := false } rfl

end Connected

end Docket
