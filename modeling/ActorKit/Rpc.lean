import ActorKit.Basic
import ActorKit.Lib.Bincode
import ActorKit.Lib.Dict

/-!
# Typed RPC

The model of `rpc.rs`: the wire formats of requests, responses and envelopes, the
table of pending calls, the client and the registry of handlers. A message type
brings its own serialization; the texts of decoding errors come from bincode and
are an argument. Only the handlers of the registry are kept: no function reads
its table of type ids.
-/

namespace ActorKit.rpc
open ActorKit.Bincode

abbrev Uuid := BitVec 128
abbrev Instant := Nat
/-- In nanoseconds. -/
abbrev Duration := Nat

def Duration.as_millis (d : Duration) : Nat := d / 1000000
def Duration.from_millis (millis : Nat) : Duration := millis * 1000000

/-! ## Messages and errors -/

/-- A request or response type: its name and what `bincode` makes of its values. -/
structure RpcMessage (T : Type) where
  TYPE_NAME : String
  serialize : T → Except String Bytes
  deserialize : Bytes → Except String T

/-- Every encoded value is read back. -/
def RpcMessage.RoundTrips {T : Type} (M : RpcMessage T) : Prop :=
  ∀ x bytes, M.serialize x = .ok bytes → M.deserialize bytes = .ok x

/-- Errors that can occur during RPC calls. -/
inductive RpcError where
  | Timeout
  | ActorNotFound (id : ActorId)
  | HandlerPanic (message : String)
  | SerializationError (message : String)
  | InternalError (message : String)
deriving DecidableEq, Repr

/-- RPC error for wire serialization. -/
inductive RawRpcError where
  | Timeout
  | ActorNotFound (id : ActorId)
  | HandlerPanic (message : String)
  | SerializationError (message : String)
  | InternalError (message : String)
deriving DecidableEq, Repr

def RpcError.toRaw : RpcError → RawRpcError
  | .Timeout => .Timeout
  | .ActorNotFound id => .ActorNotFound id
  | .HandlerPanic s => .HandlerPanic s
  | .SerializationError s => .SerializationError s
  | .InternalError s => .InternalError s

def RpcError.ofRaw : RawRpcError → RpcError
  | .Timeout => .Timeout
  | .ActorNotFound id => .ActorNotFound id
  | .HandlerPanic s => .HandlerPanic s
  | .SerializationError s => .SerializationError s
  | .InternalError s => .InternalError s

@[simp] theorem RpcError.ofRaw_toRaw (e : RpcError) : RpcError.ofRaw e.toRaw = e := by
  cases e <;> rfl

structure RpcRequest (T : Type) where
  from_ : ActorId
  to_ : ActorId
  payload : T
  correlation_id : Uuid
  timeout : Duration := 30000000000

structure RpcResponse (T : Type) where
  correlation_id : Uuid
  result : Except RpcError T

def RpcResponse.ok {T : Type} (correlation_id : Uuid) (payload : T) : RpcResponse T :=
  { correlation_id, result := .ok payload }

def RpcResponse.error {T : Type} (correlation_id : Uuid) (error : RpcError) : RpcResponse T :=
  { correlation_id, result := .error error }

structure RawRpcRequest where
  from_ : ActorId
  to_ : ActorId
  payload : Bytes
  correlation_id : Uuid
  timeout_ms : Nat
  type_name : String
deriving DecidableEq, Repr

structure RawRpcResponse where
  correlation_id : Uuid
  result : Except RawRpcError Bytes

/-- Internal message envelope for RPC communication. -/
structure RpcEnvelope where
  type_name : String
  payload : Bytes
  correlation_id : Uuid
deriving DecidableEq, Repr

/-! ## Wire formats -/

/-- The sixteen bytes of a UUID, highest first. -/
def Uuid.as_bytes (id : Uuid) : Bytes := (le 16 id.toNat).reverse

theorem Uuid.length_as_bytes (id : Uuid) : (Uuid.as_bytes id).length = 16 := by simp [as_bytes]

/-- Ids and the byte strings of length sixteen. -/
def Uuid.slice : Uuid ≃. Bytes where
  toFun id := some (Uuid.as_bytes id)
  invFun bytes := if bytes.length = 16 then some (BitVec.ofNat 128 (value bytes.reverse)) else none
  inv id bytes := by
    rw [Option.some_inj,as_bytes]
    constructor
    · intro back
      split at back
      · next sized =>
        cases back
        have small := value_lt bytes.reverse
        rw [List.length_reverse,sized] at small
        have exact := le_value bytes.reverse
        rw [List.length_reverse,sized] at exact
        rw [BitVec.toNat_ofNat,Nat.mod_eq_of_lt (lt_of_lt_of_le small (by decide)),exact,List.reverse_reverse]
      · cases back
    · rintro rfl
      have small : id.toNat < 256 ^ 16 := lt_of_lt_of_le id.isLt (by decide)
      rw [if_pos (by simp),List.reverse_reverse,value_le,Nat.mod_eq_of_lt small,BitVec.ofNat_toNat,BitVec.setWidth_eq]

def ActorId.inner : ActorId ≃ Uuid where
  toFun id := id.uuid
  invFun uuid := ⟨uuid⟩
  left_inv _ := rfl
  right_inv _ := rfl

def Uuid.format : Format Uuid := Format.blob.via Uuid.slice
def ActorId.format : Format ActorId := Uuid.format.via ActorId.inner.toPEquiv

def RawRpcRequest.fields : RawRpcRequest ≃ ActorId × ActorId × Bytes × Uuid × Nat × String where
  toFun r := (r.from_,r.to_,r.payload,r.correlation_id,r.timeout_ms,r.type_name)
  invFun f := ⟨f.1,f.2.1,f.2.2.1,f.2.2.2.1,f.2.2.2.2.1,f.2.2.2.2.2⟩
  left_inv _ := rfl
  right_inv _ := rfl

def RawRpcRequest.format : Format RawRpcRequest :=
  (ActorId.format.pair (ActorId.format.pair (Format.blob.pair (Uuid.format.pair
    ((Format.uint 8).pair Format.string))))).via RawRpcRequest.fields.toPEquiv

def RpcEnvelope.fields : RpcEnvelope ≃ String × Bytes × Uuid where
  toFun e := (e.type_name,e.payload,e.correlation_id)
  invFun f := ⟨f.1,f.2.1,f.2.2⟩
  left_inv _ := rfl
  right_inv _ := rfl

def RpcEnvelope.format : Format RpcEnvelope :=
  (Format.string.pair (Format.blob.pair Uuid.format)).via RpcEnvelope.fields.toPEquiv

/-- The index of the variant. -/
def RawRpcError.tag : RawRpcError → Nat
  | .Timeout => 0
  | .ActorNotFound _ => 1
  | .HandlerPanic _ => 2
  | .SerializationError _ => 3
  | .InternalError _ => 4

def RawRpcError.timeout : RawRpcError ≃. Unit :=
  variant (fun _ => .Timeout) (fun | .Timeout => some () | _ => none) (by rintro (_ | _ | _ | _ | _) _ <;> simp)

def RawRpcError.actor_not_found : RawRpcError ≃. ActorId :=
  variant .ActorNotFound (fun | .ActorNotFound id => some id | _ => none) (by rintro (_ | _ | _ | _ | _) _ <;> simp [eq_comm])

def RawRpcError.handler_panic : RawRpcError ≃. String :=
  variant .HandlerPanic (fun | .HandlerPanic s => some s | _ => none) (by rintro (_ | _ | _ | _ | _) _ <;> simp [eq_comm])

def RawRpcError.serialization_error : RawRpcError ≃. String :=
  variant .SerializationError (fun | .SerializationError s => some s | _ => none)
    (by rintro (_ | _ | _ | _ | _) _ <;> simp [eq_comm])

def RawRpcError.internal_error : RawRpcError ≃. String :=
  variant .InternalError (fun | .InternalError s => some s | _ => none) (by rintro (_ | _ | _ | _ | _) _ <;> simp [eq_comm])

/-- What follows each tag. -/
def RawRpcError.variants : Nat → Format RawRpcError
  | 0 => Format.unit.via timeout
  | 1 => ActorId.format.via actor_not_found
  | 2 => Format.string.via handler_panic
  | 3 => Format.string.via serialization_error
  | 4 => Format.string.via internal_error
  | _ => Format.empty

def RawRpcError.format : Format RawRpcError :=
  (Format.uint 4).keyed RawRpcError.tag RawRpcError.variants (by
    intro k e fits
    match k,fits with
    | 0,fits | 1,fits | 2,fits | 3,fits | 4,fits =>
      obtain ⟨x,shape,-⟩ := fits
      cases e <;> first | rfl | cases shape
    | _ + 5,fits => exact fits.elim)

def RawRpcResponse.fields : RawRpcResponse ≃ Uuid × Except RawRpcError Bytes where
  toFun r := (r.correlation_id,r.result)
  invFun f := ⟨f.1,f.2⟩
  left_inv _ := rfl
  right_inv _ := rfl

def RawRpcResponse.format : Format RawRpcResponse :=
  (Uuid.format.pair (Format.result Format.blob RawRpcError.format)).via RawRpcResponse.fields.toPEquiv

/-! ## Serialization -/

/-- The wire types that are decoded. -/
inductive Wire where
  | Request
  | Response
  | Envelope
deriving DecidableEq, Repr

section
-- What `bincode` says about bytes that it cannot decode.
variable (explain : Wire → Bytes → String)

/-- `bincode::deserialize`, with its errors turned into RPC errors. -/
def deserialize {α : Type} (wire : Wire) (format : Format α) (bytes : Bytes) : Except RpcError α :=
  match format.decode bytes with
  | some x => .ok x
  | none => .error (.SerializationError (explain wire bytes))

variable {T TReq TResp : Type}

def RpcRequest.to_bytes (M : RpcMessage T) (request : RpcRequest T) : Except RpcError Bytes := do
  let payload ← (M.serialize request.payload).mapError .SerializationError
  return RawRpcRequest.format.write
    { from_ := request.from_
      to_ := request.to_
      payload
      correlation_id := request.correlation_id
      timeout_ms := Duration.as_millis request.timeout % 2 ^ 64
      type_name := M.TYPE_NAME }

def RpcRequest.from_bytes (M : RpcMessage T) (bytes : Bytes) : Except RpcError (RpcRequest T) := do
  let raw ← deserialize explain .Request RawRpcRequest.format bytes
  let payload ← (M.deserialize raw.payload).mapError .SerializationError
  return { from_ := raw.from_
           to_ := raw.to_
           payload
           correlation_id := raw.correlation_id
           timeout := Duration.from_millis raw.timeout_ms }

def RpcResponse.to_bytes (M : RpcMessage T) (response : RpcResponse T) : Except RpcError Bytes := do
  let result ← match response.result with
    | .ok payload => do
      let payload_bytes ← (M.serialize payload).mapError .SerializationError
      pure (.ok payload_bytes)
    | .error e => pure (.error e.toRaw)
  return RawRpcResponse.format.write { correlation_id := response.correlation_id,result }

def RpcResponse.from_bytes (M : RpcMessage T) (bytes : Bytes) : Except RpcError (RpcResponse T) := do
  let raw ← deserialize explain .Response RawRpcResponse.format bytes
  match raw.result with
  | .ok payload_bytes =>
    let payload ← (M.deserialize payload_bytes).mapError .SerializationError
    return { correlation_id := raw.correlation_id,result := .ok payload }
  | .error e => return { correlation_id := raw.correlation_id,result := .error (.ofRaw e) }

/-! ## Pending calls -/

/-- A call that waits for its response. `tx` names the one-shot channel. -/
structure PendingCall where
  tx : Nat
  deadline : Instant
deriving DecidableEq, Repr

abbrev PendingCalls := Dict Uuid PendingCall

def PendingCalls.insert (calls : PendingCalls) (correlation_id : Uuid) (tx : Nat) (timeout : Duration) (now : Instant) :
    PendingCalls :=
  AList.insert correlation_id { tx,deadline := now + timeout } calls

def PendingCalls.remove (calls : PendingCalls) (correlation_id : Uuid) : PendingCalls × Option PendingCall :=
  (calls.erase correlation_id,calls.lookup correlation_id)

/-- The ids that `cleanup_expired` collects. -/
def PendingCalls.expired (calls : PendingCalls) (now : Instant) : List Uuid :=
  (calls.items.filter (fun entry => entry.2.deadline ≤ now)).map (·.1)

/-- The response that `cleanup_expired` sends for an expired call. -/
def timeout_response (correlation_id : Uuid) : Bytes :=
  RawRpcResponse.format.write { correlation_id,result := .error .Timeout }

/-! ## Client -/

/-- The envelope that `call_with_timeout` sends to the actor. -/
def call_envelope (M : RpcMessage TReq) (from_ to_ : ActorId) (request : TReq) (correlation_id : Uuid)
    (timeout : Duration) : Except RpcError Bytes := do
  let payload ← RpcRequest.to_bytes M { from_,to_,payload := request,correlation_id,timeout }
  return RpcEnvelope.format.write { type_name := M.TYPE_NAME,payload,correlation_id }

/-- How a call ends. -/
inductive Ending where
  /-- The request could not be serialized. -/
  | unserialized (error : RpcError)
  /-- `ActorScheduler::send` failed with this text. -/
  | unsent (error : String)
  | elapsed
  /-- The sender of the channel was dropped. -/
  | closed
  | answered (bytes : Bytes)
deriving DecidableEq, Repr

/-- What `call_with_timeout` returns. -/
def Ending.result (M : RpcMessage TResp) : Ending → Except RpcError TResp
  | .unserialized error => .error error
  | .unsent error => .error (.InternalError error)
  | .elapsed => .error .Timeout
  | .closed => .error (.InternalError "Response channel closed")
  | .answered bytes => do
    let response ← RpcResponse.from_bytes explain M bytes
    response.result

theorem answered_eq (M : RpcMessage TResp) (bytes : Bytes) :
    (Ending.answered bytes).result explain M = match RawRpcResponse.format.decode bytes with
      | none => .error (.SerializationError (explain .Response bytes))
      | some raw => match raw.result with
        | .ok payload => (M.deserialize payload).mapError .SerializationError
        | .error e => .error (.ofRaw e) := by
  unfold Ending.result RpcResponse.from_bytes deserialize
  dsimp only
  cases RawRpcResponse.format.decode bytes with
  | none => rfl
  | some raw =>
    obtain ⟨id,result⟩ := raw
    cases result with
    | error e => rfl
    | ok payload =>
      simp only [bind,Except.bind,pure,Except.pure]
      cases M.deserialize payload <;> rfl

/-- The table after a response, and the call it resolves with the payload sent
    to the channel of that call. -/
def handle_response (pending : PendingCalls) (bytes : Bytes) :
    Except RpcError (PendingCalls × Option (PendingCall × Bytes)) := do
  let envelope ← deserialize explain .Envelope RpcEnvelope.format bytes
  let (pending,call) := pending.remove envelope.correlation_id
  return (pending,call.map (·,envelope.payload))

theorem handle_response_eq (pending : PendingCalls) (bytes : Bytes) :
    handle_response explain pending bytes = match RpcEnvelope.format.decode bytes with
      | none => .error (.SerializationError (explain .Envelope bytes))
      | some envelope => .ok (pending.erase envelope.correlation_id,
          (pending.lookup envelope.correlation_id).map (·,envelope.payload)) := by
  unfold handle_response deserialize
  cases RpcEnvelope.format.decode bytes <;> rfl

/-! ## Registry -/

/-- A handler whose types are erased. -/
abbrev ErasedHandler := Bytes → Except RpcError Bytes

/-- `HandlerWrapper::handle`. -/
def HandlerWrapper (Req : RpcMessage TReq) (Resp : RpcMessage TResp) (handler : RpcRequest TReq → RpcResponse TResp) :
    ErasedHandler := fun payload => do
  let request ← RpcRequest.from_bytes explain Req payload
  RpcResponse.to_bytes Resp (handler request)

structure RpcRegistry where
  handlers : Dict String ErasedHandler := ∅

def RpcRegistry.register (registry : RpcRegistry) (Req : RpcMessage TReq) (Resp : RpcMessage TResp)
    (handler : RpcRequest TReq → RpcResponse TResp) : RpcRegistry :=
  { registry with handlers := registry.handlers.insert Req.TYPE_NAME (HandlerWrapper explain Req Resp handler) }

theorem RpcRegistry.lookup_register (registry : RpcRegistry) (Req : RpcMessage TReq) (Resp : RpcMessage TResp)
    (handler : RpcRequest TReq → RpcResponse TResp) :
    (registry.register explain Req Resp handler).handlers.lookup Req.TYPE_NAME =
      some (HandlerWrapper explain Req Resp handler) := AList.lookup_insert _

def RpcRegistry.dispatch (registry : RpcRegistry) (type_name : String) (payload : Bytes) : Except RpcError Bytes :=
  match registry.handlers.lookup type_name with
  | none => .error (.InternalError ("No handler registered for type: " ++ type_name))
  | some handler => handler payload

/-- Process an incoming RPC message and dispatch to handlers. -/
def process_rpc_message (registry : RpcRegistry) (envelope_bytes : Bytes) : Except RpcError Bytes := do
  let envelope ← deserialize explain .Envelope RpcEnvelope.format envelope_bytes
  registry.dispatch envelope.type_name envelope.payload

end
end ActorKit.rpc
