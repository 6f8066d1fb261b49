import Docket.Error
import Docket.Http.Url

/-!
Requests, and a server that answers them by a script: one entry per request, in order. When the
script is used up the server says so with a failure status.
-/

set_option autoImplicit false
set_option relaxedAutoImplicit false

namespace Docket

inductive Method where
  | head
  | post
  | delete
  deriving DecidableEq

structure Content where
  contentType : String
  body : String
  deriving DecidableEq

structure Request where
  method : Method
  target : String
  content : Option Content
  endpoint : Endpoint
  deriving DecidableEq

inductive Reply where
  /-- Answers; a body that is not text has none. -/
  | answer (status : Nat) (body : Option String)
  | drop
  | hang
  | refuse
  deriving DecidableEq

/-- A scripted server: the entries left, and the requests taken so far. -/
structure Wire where
  script : List Reply
  taken : List Request := []

namespace Wire

def exhausted : Reply := .answer 500 (some "script exhausted")

def take (w : Wire) (r : Request) : Wire := { w with taken := w.taken ++ [r] }

def send (w : Wire) (r : Request) : Except EngineError (Nat × Option String) × Wire :=
  let (reply, w) : Reply × Wire := match w.script with
    | [] => (exhausted, w)
    | reply :: rest => (reply, { w with script := rest })
  match reply with
  | .answer status body => (.ok (status, body), w.take r)
  | .drop => (.error (.network "the connection was closed"), w.take r)
  | .hang => (.error .timeout, w.take r)
  | .refuse => (.error (.network "the connection was refused"), w)

def reading {α β : Type} (answer : Except EngineError α × Wire) (read : α → Except EngineError β) :
    Except EngineError β × Wire :=
  (answer.1.bind read, answer.2)

/-- Sends a request to the first address of a URL. Without an address nothing is sent. -/
def request (w : Wire) (hosts : Hosts) (url : String) (method : Method)
    (content : Option Content) : Except EngineError (Nat × Option String) × Wire :=
  match Url.parse? url with
  | none => (.error (.network ("invalid URL " ++ url)), w)
  | some u =>
    match u.addresses hosts with
    | [] => (.error (.network ("unknown host " ++ u.host)), w)
    | address :: _ => w.send ⟨method, u.target, content, ⟨address, u.port⟩⟩

theorem script_length_send (w : Wire) (r : Request) :
    (w.send r).2.script.length < w.script.length ∨
      w.script = [] ∧ w.send r = (.ok (500, some "script exhausted"), w.take r) := by
  unfold send
  cases hs : w.script with
  | nil => exact .inr ⟨rfl, by simp [exhausted]⟩
  | cons reply rest => cases reply <;> simp [take]

/-- A request takes an entry of the script, or leaves the script alone and is answered by a failure
or that the script is used up. -/
theorem script_length_request (w : Wire) (hosts : Hosts) (url : String) (method : Method)
    (content : Option Content) :
    (w.request hosts url method content).2.script.length < w.script.length ∨
      (w.request hosts url method content).2.script = w.script ∧
        ((∃ e, (w.request hosts url method content).1 = .error e) ∨
          (w.request hosts url method content).1 = .ok (500, some "script exhausted")) := by
  unfold request
  split
  · exact .inr ⟨rfl, .inl ⟨_, rfl⟩⟩
  · rename_i u _
    split
    · exact .inr ⟨rfl, .inl ⟨_, rfl⟩⟩
    · rename_i a _ _
      rcases w.script_length_send ⟨method, u.target, content, ⟨a, u.port⟩⟩ with hlt | ⟨_, hsend⟩
      · exact .inl hlt
      · rw [hsend]
        exact .inr ⟨rfl, .inr rfl⟩

end Wire

end Docket
