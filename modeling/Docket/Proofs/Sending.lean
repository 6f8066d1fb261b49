import Docket.Proofs.Calls

/-!
Posting a record as a datagram. The addresses of the host are tried in order, and the first one that
takes the datagram ends the attempts: so one datagram is delivered, or every address has refused it,
and then the failure of the last one is logged. The store is left alone.
-/

set_option autoImplicit false
set_option relaxedAutoImplicit false

namespace Docket

namespace DatagramNet

variable (net : DatagramNet) (text : String)

/-- What comes of the attempts at some endpoints, were each of them tried; the first attempt has a
number. -/
def outcomes (attempt : Nat) (targets : List Endpoint) : List (Except SendError Unit) :=
  (targets.zipIdx attempt).map fun target => net.reach target.2 target.1 text

def refused (targets : List Endpoint) : List Attempt :=
  targets.map fun target => ⟨target, text, false⟩

private theorem outcomes_cons (attempt : Nat) (target : Endpoint) (rest : List Endpoint) :
    net.outcomes text attempt (target :: rest) =
      net.reach attempt target text :: net.outcomes text (attempt + 1) rest := by
  simp [outcomes, List.zipIdx_cons]

/-- The endpoints are tried up to the first one that takes the datagram. If none does, all of them
are tried, and the failure of the last attempt is the answer. -/
theorem sendToAny_cases (targets : List Endpoint) (attempt : Nat) (last : SendError) :
    (∃ before target behind, ∃ errors : List SendError, targets = before ++ target :: behind ∧
      net.outcomes text attempt before = errors.map .error ∧
      net.reach (attempt + before.length) target text = .ok () ∧
      net.sendToAny text attempt last targets =
        (.ok (), refused text before ++ [⟨target, text, true⟩])) ∨
    ∃ errors : List SendError, net.outcomes text attempt targets = errors.map .error ∧
      net.sendToAny text attempt last targets =
        (.error (errors.getLast?.getD last), refused text targets) := by
  induction targets generalizing attempt last with
  | nil => exact .inr ⟨[], rfl, rfl⟩
  | cons target rest ih =>
    cases hreach : net.reach attempt target text with
    | ok =>
      refine .inl ⟨[], target, rest, [], rfl, rfl, hreach, ?_⟩
      simp [sendToAny, hreach, refused]
    | error e =>
      -- One more refusal stands before what comes of the rest, which goes on with the next attempt.
      have hfirst : ∀ targets (errors : List SendError),
          net.outcomes text (attempt + 1) targets = errors.map .error →
          net.outcomes text attempt (target :: targets) = (e :: errors).map .error := by
        intro targets errors h
        rw [outcomes_cons, hreach, h, List.map_cons]
      rcases ih (attempt + 1) e with
        ⟨before, taker, behind, errors, rfl, hrefused, htaken, hsent⟩ | ⟨errors, hrefused, hsent⟩
      · refine .inl ⟨target :: before, taker, behind, e :: errors, rfl, hfirst _ _ hrefused, ?_, ?_⟩
        · rwa [List.length_cons, Nat.add_comm before.length 1, ← Nat.add_assoc]
        · simp [sendToAny, hreach, hsent, refused]
      · refine .inr ⟨e :: errors, hfirst _ _ hrefused, ?_⟩
        rw [sendToAny, hreach]
        simp [hsent, refused, List.getLast?_cons]

end DatagramNet

def Posted.delivered (p : Posted) : List Attempt := p.attempts.filter Attempt.sent

namespace Post

variable {σ : Type}

open DatagramNet in
private theorem filter_sent_refused (text : String) (targets : List Endpoint) :
    (refused text targets).filter Attempt.sent = [] := by
  simp [refused]

open DatagramNet in
/-- A record that is not empty, posted as a datagram, does not reach the store. Unless the host
cannot be resolved, its addresses are tried in order. Either one of them takes the datagram after
all before it have refused: then it is delivered once and the record is accepted. Or all refuse it:
then nothing is delivered, the record is not accepted, and one warning tells the failure of the last
attempt, or that there is no address. -/
theorem single_reaches_first (c : ClientConfig) (engine : Engine σ) (net : DatagramNet)
    (docType : String) (r : Record) (o : PostOptions) (now : Binary64) (s : σ)
    (calls : List EngineCall) (hudp : c.transport = .udp) (hr : r ≠ []) :
    let text := datagram c (document c docType r o now)
    let posted := (single c engine.recorded net docType r o now (s, calls)).1
    (single c engine.recorded net docType r o now (s, calls)).2 = (s, calls) ∧
    (∀ e, net.resolve c.host = .error e → posted = ⟨false, [notSent c e], []⟩) ∧
    ∀ addresses, net.resolve c.host = .ok addresses →
      let targets : List Endpoint := addresses.map fun a => ⟨a, c.udpPort⟩
      (∃ before target behind, ∃ errors : List SendError, targets = before ++ target :: behind ∧
        net.outcomes text 0 before = errors.map .error ∧
        net.reach before.length target text = .ok () ∧
        posted = ⟨true, [], refused text before ++ [⟨target, text, true⟩]⟩ ∧
        posted.delivered = [⟨target, text, true⟩]) ∨
      ∃ errors : List SendError, net.outcomes text 0 targets = errors.map .error ∧
        posted = ⟨false, [notSent c (errors.getLast?.getD (.noAddress c.host))],
          refused text targets⟩ ∧
        posted.delivered = [] := by
  intro text posted
  have hsingle := single_of_udp net engine.recorded (s, calls) docType o hudp hr now
  have hposted : posted = ofSending c (net.sendTo c.host c.udpPort text) :=
    congrArg Prod.fst hsingle
  refine ⟨congrArg Prod.snd hsingle, ?_, ?_⟩
  · intro e hresolve
    rw [hposted, sendTo, hresolve]
    rfl
  · intro addresses hresolve targets
    have hsent : posted = ofSending c (net.sendToAny text 0 (.noAddress c.host) targets) := by
      rw [hposted, sendTo, hresolve]
    rcases net.sendToAny_cases text targets 0 (.noAddress c.host) with
      ⟨before, target, behind, errors, htargets, hrefused, htaken, hanswer⟩ |
      ⟨errors, hrefused, hanswer⟩
    · have hwhole : posted = ⟨true, [], refused text before ++ [⟨target, text, true⟩]⟩ := by
        rw [hsent, hanswer]
        rfl
      rw [Nat.zero_add] at htaken
      refine .inl ⟨before, target, behind, errors, htargets, hrefused, htaken, hwhole, ?_⟩
      simp [hwhole, Posted.delivered, filter_sent_refused]
    · have hwhole : posted = ⟨false, [notSent c (errors.getLast?.getD (.noAddress c.host))],
          refused text targets⟩ := by
        rw [hsent, hanswer]
        rfl
      refine .inr ⟨errors, hrefused, hwhole, ?_⟩
      simp [hwhole, Posted.delivered, filter_sent_refused]

def byDatagram : ClientConfig := { ClientConfig.default with transport := .udp }

def hesitant : DatagramNet where
  resolve _ := .ok [.v4 10 0 0 1, .v6 (Vector.replicate 8 1), .v4 10 0 0 1]
  call
    | _, .bind (.v6 _) => .error (.system "Address family not supported")
    | 0, .send _ _ => .error .unreachable
    | _, _ => .ok ()

theorem single_reaches_first_hesitant :
    let r : Record := [("n", .ofNat 1)]
    let text := datagram byDatagram (document byDatagram "job" r { stamp := false } (.ofInt 0))
    let posted := single byDatagram (Engine.recorded (σ := Unit) .idle) hesitant "job" r
      { stamp := false } (.ofInt 0) ((), [])
    byDatagram.transport = .udp ∧ r ≠ [] ∧ posted.2 = ((), []) ∧ posted.1.accepted = true ∧
      posted.1.delivered.map Attempt.text = [text] := by
  intro r text posted
  obtain ⟨hcalls, -, htried⟩ := single_reaches_first byDatagram (σ := Unit) .idle hesitant "job" r
    { stamp := false } (.ofInt 0) () [] rfl (by simp [r])
  rcases htried _ rfl with ⟨before, target, behind, errors, -, -, -, hposted, hdelivered⟩ |
    ⟨errors, hrefused, -⟩
  · refine ⟨rfl, by simp [r], hcalls, congrArg Posted.accepted hposted, ?_⟩
    exact congrArg (List.map Attempt.text) hdelivered
  · have htaken : .ok () ∈ errors.map (Except.error (α := Unit)) := by
      rw [← hrefused]
      exact List.mem_of_getElem? (i := 2) rfl
    simp at htaken

end Post

end Docket
