import Docket.Proofs.Calls
import Docket.Proofs.Likeness

/-!
Steps that read are bystanders. Without them a session writes the same: the answers to the other
steps stay, and so do the stored documents, but for generated ids and stamped times.
-/

set_option autoImplicit false
set_option relaxedAutoImplicit false

namespace Docket

def InMemoryStep.reads : InMemoryStep → Bool
  | .client (.query _) | .client (.execute _) | .client (.indexExists _) | .client (.search _ _)
  | .client (.scan _ _ _ _) | .documents _ | .docTypes _ | .calls | .lastScanBatch => true
  | _ => false

namespace Session

variable {σ τ ι α : Type} (drops : ι → Bool)

def kept (number : Nat) (steps : List ι) : List (ι × Nat) :=
  (steps.zipIdx number).filter fun s => !drops s.1

def ofKept {β : Type} (steps : List ι) (entries : List β) : List β :=
  ((steps.zip entries).filter fun s => !drops s.1).map Prod.snd

private theorem ofKept_cons {drops : ι → Bool} {β : Type} {i : ι} (steps : List ι)
    (hi : drops i = false) (entry : β) (entries : List β) :
    ofKept drops (i :: steps) (entry :: entries) = entry :: ofKept drops steps entries := by
  simp [ofKept, hi]

variable {drops} {f : Nat → ι → σ → Outcome α × σ} {g : Nat → ι → τ → Outcome α × τ}
  {R : σ → τ → Prop} {Q : Outcome α → Outcome α → Prop}

/-- A session and the one without the dropped steps. A dropped step keeps the relation to the state
of the other session, and any other step has related outcomes and leaves related states. -/
theorem run_kept (fits : ι → Nat → Nat → Prop)
    (hdrop : ∀ {s t} number i, drops i = true → R s t → R (f number i s).2 t)
    (hkeep : ∀ {s t} number number' i, drops i = false → fits i number number' → R s t →
      Q (f number i s).1 (g number' i t).1 ∧ R (f number i s).2 (g number' i t).2)
    (steps : List ι) (number number' : Nat)
    (hfits : ∀ k i j, (kept drops number steps)[k]? = some (i, j) → fits i j (number' + k))
    {s : σ} {t : τ} (h : R s t) :
    List.Forall₂ Q ((ofKept drops steps (run f number steps s)).map Prod.fst)
        ((run g number' (steps.filter fun i => !drops i) t).map Prod.fst) ∧
      R (final f number steps s) (final g number' (steps.filter fun i => !drops i) t) := by
  -- A dropped step has a number in one session only, so the two numbers drift apart.
  induction steps generalizing number number' s t with
  | nil => exact ⟨.nil, h⟩
  | cons i steps ih =>
    cases hi : drops i with
    | true =>
      have hlater : ∀ k i j, (kept drops (number + 1) steps)[k]? = some (i, j) →
          fits i j (number' + k) := by
        simpa [kept, hi] using hfits
      have hrest := ih (number + 1) number' hlater (hdrop number i hi h)
      simpa [ofKept, run, final, hi] using hrest
    | false =>
      have hkept : kept drops number (i :: steps) = (i, number) :: kept drops (number + 1) steps := by
        simp [kept, hi]
      rw [hkept] at hfits
      obtain ⟨houtcome, hstates⟩ := hkeep number number' i hi (hfits 0 i number rfl) h
      have hlater : ∀ k i j, (kept drops (number + 1) steps)[k]? = some (i, j) →
          fits i j (number' + 1 + k) := by
        intro k i j hk
        have hfit := hfits (k + 1) i j hk
        rwa [Nat.add_comm k 1, ← Nat.add_assoc] at hfit
      obtain ⟨houtcomes, hfinal⟩ := ih (number + 1) (number' + 1) hlater hstates
      rw [List.filter_cons_of_pos (by simp [hi]), run, run, ofKept_cons _ hi]
      exact ⟨.cons houtcome houtcomes, hfinal⟩

end Session

namespace Likeness

structure Attempt (L : Likeness) (c : ClientConfig) (a b : Docket.Attempt) : Prop where
  target : a.target = b.target
  sent : a.sent = b.sent
  text : ∃ d e, L.Action d e ∧ a.text = Post.datagram c d ∧ b.text = Post.datagram c e

structure Outcome (L : Likeness) (c : ClientConfig) (x y : Docket.Outcome InMemoryAnswer) : Prop where
  answer : x.answer = y.answer
  log : x.log = y.log
  attempts : List.Forall₂ (L.Attempt c) x.attempts y.attempts

/-- What two runs need of a step that is in both: its times stand for each other, the ids that it
names stand for themselves, and the network treats its datagrams alike. -/
structure Fits (L : Likeness) (c : ClientConfig) (net : DatagramNet) (now now' : Nat → Binary64)
    (step : InMemoryStep) : Prop where
  times (i : Nat) : L.times (now i) (now' i)
  given : ∀ a ∈ step.requests c now, ∀ id ∈ a.id, L.ids id id
  datagrams {docType : String} {r : Record} {o : PostOptions}
    (hstep : step = .client (.post docType r o)) (hudp : c.transport = .udp) (target : Endpoint) :
    net.send target (Post.datagram c (Post.document c docType r o (now 0))) =
      net.send target (Post.datagram c (Post.document c docType r o (now' 0)))

variable {L : Likeness} (c : ClientConfig) (net : DatagramNet)

private theorem Outcome.refl (x : Docket.Outcome InMemoryAnswer) (hattempts : x.attempts = []) :
    L.Outcome c x x := by
  refine ⟨rfl, rfl, ?_⟩
  rw [hattempts]
  exact .nil

end Likeness

section Sending

variable {net : DatagramNet} {text text' : String} {P : Attempt → Attempt → Prop}
  (hsend : ∀ target, net.send target text = net.send target text')
  (hattempt : ∀ target sent, P ⟨target, text, sent⟩ ⟨target, text', sent⟩)

include hsend hattempt

private theorem DatagramNet.sendToAny_alike (targets : List Endpoint) (attempt : Nat)
    (last : SendError) :
    (net.sendToAny text attempt last targets).1 = (net.sendToAny text' attempt last targets).1 ∧
      List.Forall₂ P (net.sendToAny text attempt last targets).2
        (net.sendToAny text' attempt last targets).2 := by
  induction targets generalizing attempt last with
  | nil => exact ⟨rfl, .nil⟩
  | cons target rest ih =>
    have hreach : net.reach attempt target text = net.reach attempt target text' := by
      rw [reach, reach, hsend target]
    rw [sendToAny, sendToAny, hreach]
    cases net.reach attempt target text' with
    | ok => exact ⟨rfl, .cons (hattempt target true) .nil⟩
    | error e =>
      obtain ⟨hanswer, hattempts⟩ := ih (attempt + 1) e
      exact ⟨hanswer, .cons (hattempt target false) hattempts⟩

private theorem DatagramNet.sendTo_alike (host : String) (port : UInt16) :
    (net.sendTo host port text).1 = (net.sendTo host port text').1 ∧
      List.Forall₂ P (net.sendTo host port text).2 (net.sendTo host port text').2 := by
  rw [sendTo, sendTo]
  cases net.resolve host with
  | error e => exact ⟨rfl, .nil⟩
  | ok addresses => exact sendToAny_alike hsend hattempt _ _ _

end Sending

section Removal

variable {L : Likeness} (c : ClientConfig) (net : DatagramNet) (cap : Option Nat)
  {freshId freshId' : Nat → String} {now now' : Nat → Binary64} {m n : InMemory}

private theorem InMemory.run_reads (freshId : Nat → String) (now : Nat → Binary64) (m : InMemory)
    {step : InMemoryStep} (hreads : step.reads = true) :
    (m.run ⟨c, .inMemory cap freshId, net⟩ now step).2.SameContents m := by
  have heffect : m.effect freshId c now step = m := by
    cases step with
    | client step =>
      cases step with
      | query | execute | indexExists | search | scan => exact afterWrites_nil freshId m
      | _ => cases hreads
    | documents | docTypes | calls | lastScanBatch => exact afterWrites_nil freshId m
    | _ => cases hreads
  have hcontents := run_sameContents freshId cap c net now m step
  rwa [heffect] at hcontents

def Posted.outcome (p : Posted) : Outcome InMemoryAnswer :=
  ⟨.client (.posted p.accepted), p.log, p.attempts⟩

private theorem Post.ofSending_alike {x y : Except SendError Unit × List Attempt}
    (hanswer : x.1 = y.1) (hattempts : List.Forall₂ (L.Attempt c) x.2 y.2) :
    L.Outcome c (ofSending c x).outcome (ofSending c y).outcome := by
  obtain ⟨answer, attempts⟩ := x
  obtain ⟨answer', attempts'⟩ := y
  obtain rfl : answer = answer' := hanswer
  cases answer <;> exact ⟨rfl, rfl, hattempts⟩

private theorem Post.outcome_alike {docType : String} {r : Record} {o : PostOptions}
    (hfits : L.Fits c net now now' (.client (.post docType r o))) (answer : Except EngineError Unit) :
    L.Outcome c (outcome c net r (document c docType r o (now 0)) answer).outcome
      (outcome c net r (document c docType r o (now' 0)) answer).outcome := by
  have hdocument := Likeness.document_alike c o docType r (hfits.times 0)
  unfold outcome
  split
  · exact .refl c _ rfl
  · cases htransport : c.transport with
    | http =>
      cases answer with
      | ok => exact .refl c _ rfl
      | error e => exact .refl c _ rfl
    | udp =>
      obtain ⟨hanswer, hattempts⟩ := DatagramNet.sendTo_alike (P := L.Attempt c)
        (hfits.datagrams rfl htransport) (fun target sent => ⟨rfl, rfl, _, _, hdocument, rfl, rfl⟩)
        c.host c.udpPort
      exact ofSending_alike c hanswer hattempts

private theorem Likeness.State.outcome (h : L.State m n) {step : InMemoryStep}
    (hwrites : step.reads = false) (hfits : L.Fits c net now now' step) :
    L.Outcome c (m.run ⟨c, .inMemory cap freshId, net⟩ now step).1
      (n.run ⟨c, .inMemory cap freshId', net⟩ now' step).1 := by
  have hanswer : m.acceptance = n.acceptance := by
    rw [InMemory.acceptance, InMemory.acceptance, h.failure]
  cases step with
  | client step =>
    cases step with
    | post docType r o =>
      have hposted := Post.outcome_alike c net hfits m.acceptance
      have hleft := Post.single_outcome c net (.inMemory cap freshId) m docType r o (now 0)
      have hright := Post.single_outcome c net (.inMemory cap freshId') n docType r o (now' 0)
      simp only [InMemory.index_answer] at hleft hright
      rw [← hleft, hanswer, ← hright] at hposted
      exact hposted
    | bulkPost rs o =>
      have hleft := Post.many_outcome c (.inMemory cap freshId) m rs o now
      have hright := Post.many_outcome c (.inMemory cap freshId') n rs o now'
      rw [InMemory.bulk_answer] at hleft hright
      have hposted : L.Outcome c (Post.outcomeOfMany c rs m.acceptance).outcome
          (Post.outcomeOfMany c rs n.acceptance).outcome := by
        rw [hanswer]
        exact .refl c _ (Post.attempts_outcomeOfMany c rs n.acceptance)
      rw [← hleft, ← hright] at hposted
      exact hposted
    | settings => exact .refl c _ rfl
    | index index docType document =>
      simp only [InMemory.run, Client.run, InMemory.index_answer, hanswer]
      exact .refl c _ rfl
    | bulk actions =>
      simp only [InMemory.run, Client.run, InMemory.bulk_answer, hanswer]
      exact .refl c _ rfl
    | _ => cases hwrites
  | createIndex index => exact .refl c _ rfl
  | failWith detail => exact .refl c _ rfl
  | _ => cases hwrites

private theorem Likeness.State.run (h : L.State m n) (hmade : ∀ i, L.ids (freshId i) (freshId' i))
    {step : InMemoryStep} (hfits : L.Fits c net now now' step) :
    L.State (m.run ⟨c, .inMemory cap freshId, net⟩ now step).2
      (n.run ⟨c, .inMemory cap freshId', net⟩ now' step).2 :=
  (h.effect hmade hfits.times hfits.given).congr
    (InMemory.run_sameContents freshId cap c net now m step)
    (InMemory.run_sameContents freshId' cap c net now' n step)

end Removal

section Sessions

variable (c : ClientConfig) (net : DatagramNet) (cap : Option Nat) {freshId freshId' : Nat → String}
  {clock clock' : Nat → Nat → Binary64} {L : Likeness} {m n : InMemory}

private theorem Session.inMemory_kept (hmade : ∀ i, L.ids (freshId i) (freshId' i))
    (hstart : L.State m n) (steps : List InMemoryStep)
    (hfits : ∀ k step i, (kept InMemoryStep.reads 0 steps)[k]? = some (step, i) →
      L.Fits c net (clock i) (clock' k) step) :
    List.Forall₂ (L.Outcome c)
        ((ofKept InMemoryStep.reads steps
          (inMemory ⟨c, .inMemory cap freshId, net⟩ clock steps m)).map Prod.fst)
        ((inMemory ⟨c, .inMemory cap freshId', net⟩ clock'
          (steps.filter fun step => !step.reads) n).map Prod.fst) ∧
      L.State (finalInMemory ⟨c, .inMemory cap freshId, net⟩ clock steps m)
        (finalInMemory ⟨c, .inMemory cap freshId', net⟩ clock'
          (steps.filter fun step => !step.reads) n) := by
  refine run_kept (fun step i j => L.Fits c net (clock i) (clock' j) step) ?_ ?_ steps 0 0 ?_
    hstart
  · intro m n i step hreads h
    exact h.congr (InMemory.run_reads c net cap freshId (clock i) m hreads) (.refl n)
  · intro m n i j step hwrites hfits h
    exact ⟨h.outcome c net cap hwrites hfits, h.run c net cap hmade hfits⟩
  · intro k step i hk
    rw [Nat.zero_add]
    exact hfits k step i hk

/-- A session without its steps that read comes out alike in all else, and leaves alike documents.
No call that fails, or that is made while a failure is injected, stores anything. And at every point
the counters of a session have counted the calls made. -/
theorem Session.readers_are_bystanders (freshId : Nat → String) (clock : Nat → Nat → Binary64)
    (steps : List InMemoryStep) (m : InMemory) :
    let client : Client InMemory := ⟨c, .inMemory cap freshId, net⟩
    (∀ (L : Likeness) (freshId' : Nat → String) (clock' : Nat → Nat → Binary64) (n : InMemory),
      (∀ i, L.ids (freshId i) (freshId' i)) → L.State m n →
      (∀ k step i, (kept InMemoryStep.reads 0 steps)[k]? = some (step, i) →
        L.Fits c net (clock i) (clock' k) step) →
      let client' : Client InMemory := ⟨c, .inMemory cap freshId', net⟩
      let writes := steps.filter fun step => !step.reads
      List.Forall₂ (L.Outcome c)
          ((ofKept InMemoryStep.reads steps (inMemory client clock steps m)).map Prod.fst)
          ((inMemory client' clock' writes n).map Prod.fst) ∧
        L.State (finalInMemory client clock steps m) (finalInMemory client' clock' writes n)) ∧
    (∀ (n : InMemory) (now : Nat → Binary64) (step : Step),
      n.failure.isSome ∨ (client.run now step n).1.answer.Fails →
      (client.run now step n).2.store = n.store) ∧
    List.Forall₂ (Agree m.calls.Counted) (inMemory client clock steps m)
      (recordedInMemory client clock steps m) := by
  refine ⟨?_, ?_, ?_⟩
  · intro L freshId' clock' n hmade hstart hfits
    exact inMemory_kept c net cap hmade hstart steps hfits
  · intro n now step h
    exact Client.run_failed c net cap freshId now h
  · exact recorded_counts c net cap freshId clock steps m

/-- Two runs in which one id is given and the generated one differs; nothing is asked of times. -/
def renamed : Likeness where
  ids a b := a = "1" ∧ b = "1" ∨ a = "new" ∧ b = "other"
  times _ _ := True
  one_to_one := by
    constructor
    · rintro a b i (⟨rfl, rfl⟩ | ⟨rfl, rfl⟩) (⟨rfl, hi⟩ | ⟨rfl, hi⟩) <;> simp_all
    · rintro a b i (⟨rfl, rfl⟩ | ⟨rfl, rfl⟩) (⟨hi, rfl⟩ | ⟨hi, rfl⟩) <;> simp_all

def watchedWrites : List InMemoryStep :=
  [.client (.bulk [⟨"metadata", "host", some "1", []⟩]), .documents "metadata",
    .client (.post "host" [("up", .bool true)] {}), .client (.indexExists "metadata"),
    .client (.index "metadata" "host" [])]

theorem Session.readers_are_bystanders_watched :
    let net : DatagramNet := .ofHosts ⟨[]⟩ []
    let clock : Nat → Nat → Binary64 := fun i _ => .ofInt i
    (∀ k step i, (kept InMemoryStep.reads 0 watchedWrites)[k]? = some (step, i) →
      renamed.Fits .default net (clock i) (clock k) step) ∧
    renamed.State
      (finalInMemory ⟨.default, .inMemory none fun _ => "new", net⟩ clock watchedWrites {})
      (finalInMemory ⟨.default, .inMemory none fun _ => "other", net⟩ clock
        (watchedWrites.filter fun step => !step.reads) {}) := by
  intro net clock
  have hmade : ∀ i : Nat, renamed.ids "new" "other" := fun _ => .inr ⟨rfl, rfl⟩
  have hstart : renamed.State {} {} := ⟨fun _ => .none, rfl, rfl⟩
  have hfits : ∀ k step i, (kept InMemoryStep.reads 0 watchedWrites)[k]? = some (step, i) →
      renamed.Fits .default net (clock i) (clock k) step := by
    intro k step i hk
    refine ⟨fun _ => trivial, ?_, fun _ hudp => absurd hudp (by decide)⟩
    have hmem : step ∈ watchedWrites :=
      List.fst_mem_of_mem_zipIdx (List.mem_of_mem_filter (List.mem_of_getElem? hk))
    simp only [watchedWrites, List.mem_cons, List.not_mem_nil, or_false] at hmem
    rcases hmem with rfl | rfl | rfl | rfl | rfl <;>
      simp [InMemoryStep.requests, Post.document, renamed, ClientConfig.default]
  obtain ⟨hremoval, -, -⟩ := readers_are_bystanders .default net none (fun _ => "new") clock
    watchedWrites {}
  exact ⟨hfits, (hremoval renamed (fun _ => "other") clock {} hmade hstart hfits).2⟩

end Sessions

end Docket
