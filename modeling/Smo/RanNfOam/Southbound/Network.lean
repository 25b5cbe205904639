import Smo.Lib.EditConfig
import Smo.RanNfOam.Southbound.NetconfSsh
import Smo.RanNfOam.Southbound.RestconfClient

/-! A network element that carries out each request as RFC 6241 and RFC 8040 say, behind a
channel that may lose any request and any reply, and the clients that edit it. -/
namespace Smo.RanNfOam

open ConfigJobs

/-- An element over configurations `C`: whether the target of a change is there, what an
operation on it makes of the configuration or the tag it is refused with, what the element
says to a commit, and the status of a RESTCONF refusal. -/
structure NetworkElement (C : Type) where
  present : Change → C → Bool
  execute : String → Change → C → Except String C
  accepts : C → Except String Unit
  status : String → Nat
  candidate : Bool
  create_exists : ∀ change c, present change c → execute "create" change c = .error "data-exists"
  created : ∀ change c c', execute "create" change c = .ok c' → present change c'
  delete_missing : ∀ change c,
    execute "delete" change c = .error "data-missing" ↔ present change c = false
  deleted : ∀ change c c', execute "delete" change c = .ok c' → present change c' = false
  remove_eq : ∀ change c, execute "remove" change c =
    if present change c then execute "delete" change c else .ok c
  again : ∀ operation change c c', operation ≠ "create" → operation ≠ "delete" →
    execute operation change c = .ok c' → execute operation change c' = .ok c'
  definite : ∀ tag, 400 ≤ status tag ∧ status tag ≠ 408 ∧ status tag ≠ 502 ∧
    status tag ≠ 503 ∧ status tag ≠ 504

inductive Loss where
  | timeout
  | unreachable
  | gateway (status : { status : Nat // status = 408 ∨ 500 ≤ status })
  deriving DecidableEq, Repr

inductive Fate where
  | requestLost (loss : Loss)
  | replyLost (loss : Loss)
  | delivered
  deriving DecidableEq, Repr

/-- What the channel does during an attempt: whether the element has noticed by then that
the sessions before it ended, how a session fails to open, the fates of its messages, and
the time it takes. -/
structure Attempt where
  noticed : Bool := true
  unopened : Option { reason : String //
    reason = "NETCONF_TIMEOUT" ∨ reason = "NETCONF_UNREACHABLE" ∨ reason = "NETCONF_RPC_FAILED" }
    := none
  fate : Nat → Fate := fun _ => .delivered
  took : Nat := 0

abbrev Channel := Nat → Attempt

/-- An element's datastores; `candidate` has the uncommitted changes. -/
structure Device (C : Type) where
  running : C
  candidate : Option C := none
  locked : Bool := false
  deriving DecidableEq, Repr

structure Network (C : Type) where
  device : Device C
  attempt : Nat := 0
  clock : Nat := 0
  deriving Repr

def Fate.deliver {σ α : Type} (fate : Fate) (serve : σ → σ × α) (s : σ) : σ × Except Loss α :=
  match fate with
  | .requestLost loss => (s, .error loss)
  | .replyLost loss => ((serve s).1, .error loss)
  | .delivered => ((serve s).1, .ok (serve s).2)

namespace Loss

/-- What `httpx` makes of an exchange without an answer. -/
def httpAnswer {β : Type} (empty : β) : Loss → HttpAnswer β
  | timeout => .timedOut
  | unreachable => .failed
  | gateway status => .response status.val empty

def sshError : Loss → NetconfSsh.NetconfSshError
  | timeout => ⟨"NETCONF_TIMEOUT", "no reply within the timeout"⟩
  | unreachable => ⟨"NETCONF_UNREACHABLE", "receive failed"⟩
  | gateway _ => ⟨"NETCONF_UNREACHABLE", "the server closed the session"⟩

end Loss

namespace NetworkElement

variable {C : Type} (element : NetworkElement C)

def edit (change : Change) (c : C) : Except String C :=
  element.execute change.operation change c

def edits : List Change → C → Except String C
  | [], c => .ok c
  | change :: changes, c =>
    match element.edit change c with
    | .error tag => .error tag
    | .ok c => edits changes c

def transaction (changes : List Change) (c : C) : Except String C :=
  match element.edits changes c with
  | .error tag => .error tag
  | .ok c =>
    match element.accepts c with
    | .error tag => .error tag
    | .ok _ => .ok c

def reply : Except String Unit → Xml
  | .ok _ => .element "rpc-reply" [] "" [.element "ok" [] "" []]
  | .error tag => .element "rpc-reply" [] "" [
      .element "rpc-error" [] "" [.element "error-tag" [] tag []]]

/-- The outcome of a request that replaces the running configuration, or is refused. -/
def replaced (device : Device C) : Except String C → Device C × Except String Unit
  | .error tag => (device, .error tag)
  | .ok c => ({ device with running := c }, .ok ())

def serveRunning (operation : String) (change : Change) (device : Device C) :
    Device C × Except String Unit :=
  replaced device (element.execute operation change device.running)

/-- What a command of a candidate transaction does. A lock is denied while another session
holds it or left changes behind, and its release discards them. -/
def serveCandidate : NetconfSsh.Command → Device C → Device C × Except String Unit
  | .lock, device =>
    if device.locked || device.candidate.isSome then (device, .error "lock-denied")
    else ({ device with locked := true }, .ok ())
  | .edit change, device =>
    match element.edit change (device.candidate.getD device.running) with
    | .error tag => (device, .error tag)
    | .ok c => ({ device with candidate := some c }, .ok ())
  | .commit, device =>
    match element.accepts (device.candidate.getD device.running) with
    | .error tag => (device, .error tag)
    | .ok _ =>
      ({ device with running := device.candidate.getD device.running, candidate := none }, .ok ())
  | .discard, device => ({ device with candidate := none }, .ok ())
  | .unlock, device => ({ device with candidate := none, locked := false }, .ok ())

def notice (noticed : Bool) (device : Device C) : Device C :=
  if noticed && device.locked then { device with candidate := none, locked := false }
  else device

def serve (candidate : Bool) (command : NetconfSsh.Command) (device : Device C) :
    Device C × Except String Unit :=
  if candidate then element.serveCandidate command device
  else
    match command with
    | .edit change => element.serveRunning change.operation change device
    | _ => (device, .error "operation-not-supported")

/-- A session during an attempt; its state is the device and the messages sent so far. -/
def session (attempt : Attempt) (candidate : Bool) : NetconfSsh.Session (Device C × Nat) where
  opening s :=
    match attempt.unopened with
    | some reason => (s, .error ⟨reason.val, "the session was not established"⟩)
    | none => ((notice attempt.noticed s.1, s.2), .ok element.candidate)
  rpc command s :=
    let ended := (attempt.fate s.2).deliver (element.serve candidate command) s.1
    ((ended.1, s.2 + 1),
      match ended.2 with
      | .error loss => .error loss.sshError
      | .ok answer => .ok (reply answer))
  close s := s

def netconfAnswer : Except Loss (Except String Unit) → HttpAnswer Xml
  | .error loss => loss.httpAnswer (.element "html" [] "" [])
  | .ok answer => .response 200 (reply answer)

def operationOf : RestconfClient.Method → String
  | .patch => "merge"
  | .put => "replace"
  | .post => "create"
  | .delete => "delete"

/-- A RESTCONF response; its body is kept as the `error-tag` in it. -/
def restconfAnswer : Except Loss (Except String Unit) → HttpAnswer (Option String)
  | .error loss => loss.httpAnswer none
  | .ok (.error tag) => .response (element.status tag) (some tag)
  | .ok (.ok _) => .response 204 none

def httpEdit (attempt : Attempt) (change : Change) (device : Device C) :
    Device C × EditResult :=
  let ended := (attempt.fate 0).deliver (element.serveRunning change.operation change) device
  (ended.1, NetconfClient.sendEditConfig some (netconfAnswer ended.2))

def restconfEdit (attempt : Attempt) (change : Change) (device : Device C) :
    Device C × EditResult :=
  RestconfClient.sendEdit id change.operation
    (fun method device =>
      let ended := (attempt.fate 0).deliver
        (element.serveRunning (operationOf method) change) device
      (ended.1, element.restconfAnswer ended.2)) device

def sshEdit (attempt : Attempt) (model candidate : Bool) (change : Change)
    (device : Device C) : Device C × EditResult :=
  let ended := NetconfSsh.sendEditConfig (element.session attempt candidate) model candidate
    change (device, 0)
  (ended.1.1, ended.2)

def sshEdits (attempt : Attempt) (model : Bool) (changes : List Change) (device : Device C) :
    Device C × List EditResult :=
  let ended := NetconfSsh.sendEditConfigs (element.session attempt true) model changes
    (device, 0)
  (ended.1.1, ended.2)

end NetworkElement

def Network.after {C : Type} (network : Network C) (attempt : Attempt) (device : Device C) :
    Network C :=
  ⟨device, network.attempt + 1, network.clock + attempt.took⟩

def sshTransport (endpoint : O1AdaptorEndpoint) : Prop :=
  endpoint.transport = "ssh" ∨ endpoint.transport = "tls"

instance (endpoint : O1AdaptorEndpoint) : Decidable (sshTransport endpoint) :=
  inferInstanceAs (Decidable (_ ∨ _))

section Clients

variable {C : Type} (element : NetworkElement C) (channel : Channel) (model : String → Bool)
variable (reads : Network C → ManagedEntity → O1AdaptorEndpoint → Change → ReadAnswer)

/-- The edit of `_o1_client(protocol, transport)`. -/
def deviceEdit (attempt : Attempt) (me : ManagedEntity) (endpoint : O1AdaptorEndpoint)
    (change : Change) (device : Device C) : Device C × EditResult :=
  if me.o1Protocol = "NETCONF" then
    if sshTransport endpoint then
      element.sshEdit attempt (model endpoint.adaptorUri) endpoint.candidate change device
    else element.httpEdit attempt change device
  else element.restconfEdit attempt change device

/-- The O1 clients of the element behind its channel; `model` tells which adaptor URIs name
a YANG model, and `reads` answers the reads. -/
def clients : O1Clients (Network C) where
  sendEdit network me endpoint change :=
    if o1Client me.o1Protocol = none then (network, none)
    else
      let ended := deviceEdit element model (channel network.attempt) me endpoint change
        network.device
      (network.after (channel network.attempt) ended.1, some ended.2)
  sendEdits network endpoint changes :=
    let ended := element.sshEdits (channel network.attempt) (model endpoint.adaptorUri) changes
      network.device
    (network.after (channel network.attempt) ended.1, some ended.2)
  sendGet := reads
  monotonic network := network.clock
  sleep network delay := { network with clock := network.clock + delay }

end Clients

section Rfc

open EditConfig

def editOperation : String → Option Operation
  | "merge" => some .merge
  | "replace" => some .replace
  | "create" => some .create
  | "delete" => some .delete
  | "remove" => some .remove
  | _ => none

def refusalTag : Refusal → String
  | .dataExists => "data-exists"
  | .dataMissing => "data-missing"

def targetOf (change : Change) : String × Option String :=
  (change.managedElementRef, change.managedFunctionRef)

def writtenOf (change : Change) : List (String × String) :=
  change.attributeChanges.map fun (name, value) => (name, value.str)

abbrev ElementConfig := Config (String × Option String) String String

def executeEdit (operation : String) (change : Change) (config : ElementConfig) :
    Except String ElementConfig :=
  match editOperation operation with
  | none => .error "bad-attribute"
  | some operation =>
    match edit operation (targetOf change) (writtenOf change) config with
    | .error refusal => .error (refusalTag refusal)
    | .ok config => .ok config

def rfcElement : NetworkElement ElementConfig where
  present change config := (config (targetOf change)).isSome
  execute := executeEdit
  accepts _ := .ok ()
  status _ := 409
  candidate := true
  create_exists change config there := by
    have refused := (@create_refused _ _ _ _ _ (targetOf change) (writtenOf change) config).2 there
    simp only [executeEdit, editOperation, refused, refusalTag]
  created change config config' ok := by
    simp only [executeEdit, editOperation] at ok
    split at ok
    · cases ok
    · rename_i made
      cases ok
      exact created made
  delete_missing change config := by
    have refused := @delete_refused _ _ _ _ _ (targetOf change) (writtenOf change) config
    simp only [executeEdit, editOperation]
    cases here : config (targetOf change) with
    | none => simp [refused.2 here, refusalTag]
    | some object => simp [edit, here]
  deleted change config config' ok := by
    simp only [executeEdit, editOperation] at ok
    split at ok
    · cases ok
    · rename_i made
      cases ok
      rw [deleted made]
      rfl
  remove_eq change config := by
    have removed := @remove_eq _ _ _ _ _ (targetOf change) (writtenOf change) config
    simp only [executeEdit, editOperation, removed]
    cases here : config (targetOf change) with
    | none => simp [edit, here]
    | some object => simp [edit, here]
  again operation change config config' create delete ok := by
    unfold executeEdit at ok ⊢
    have known : ∀ op, editOperation operation = some op → op ≠ .create ∧ op ≠ .delete := by
      intro op same
      unfold editOperation at same
      split at same <;> cases same <;> simp_all
    cases op : editOperation operation with
    | none => rw [op] at ok; cases ok
    | some op' =>
      rw [op] at ok
      simp only at ok ⊢
      split at ok
      · cases ok
      · rename_i made
        cases ok
        rw [edit_again (known op' op).1 (known op' op).2 made]
  definite _ := by decide

end Rfc

end Smo.RanNfOam
