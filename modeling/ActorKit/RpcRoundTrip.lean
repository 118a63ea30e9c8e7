import ActorKit.RpcWire

/-!
# Calls end to end

The client sends an envelope, `process_rpc_message` unpacks it and returns the
bare response of the handler, and `handle_response` expects an envelope again.
Read as an envelope, a response has its id for a name and its tag and length for
the length of the payload: it resolves no call, unless its payload is larger than
64 GiB and holds another response with the same value, followed by the id of the
call.
-/

namespace ActorKit.RpcRoundTrip
open ActorKit.rpc ActorKit.Bincode ActorKit.RpcWire

/-! ## The way there -/

section
variable {explain : Wire → Bytes → String} {TReq TResp : Type} {Req : RpcMessage TReq} {Resp : RpcMessage TResp}

/-- The request as the handler receives it: the timeout in whole milliseconds. -/
def received (from_ to_ : ActorId) (request : TReq) (correlation_id : Uuid) (timeout : Duration) : RpcRequest TReq :=
  { from_,to_,payload := request,correlation_id,timeout := Duration.from_millis (Duration.as_millis timeout % 2 ^ 64) }

theorem request_arrives (trips : Req.RoundTrips) {from_ to_ : ActorId} {request : TReq} {correlation_id : Uuid}
    {timeout : Duration} {bytes : Bytes}
    (written : RpcRequest.to_bytes Req { from_,to_,payload := request,correlation_id,timeout } = .ok bytes)
    (sized : bytes.length < 2 ^ 63) :
    RpcRequest.from_bytes explain Req bytes = .ok (received from_ to_ request correlation_id timeout) := by
  unfold RpcRequest.to_bytes at written
  cases serialized : Req.serialize request with
  | error e =>
    rw [serialized] at written
    cases written
  | ok payload =>
    rw [serialized] at written
    cases written
    have small : Duration.as_millis timeout % 2 ^ 64 < 2 ^ 64 := Nat.mod_lt _ (by decide)
    unfold RpcRequest.from_bytes deserialize
    rw [request_decode sized small]
    show (do let payload ← (Req.deserialize payload).mapError RpcError.SerializationError; _) = _
    rw [trips request payload serialized]
    rfl

/-- The envelope of a call reaches the handler of its type. -/
theorem process_call (trips : Req.RoundTrips) {registry : RpcRegistry} {handler : RpcRequest TReq → RpcResponse TResp}
    (registered : registry.handlers.lookup Req.TYPE_NAME = some (HandlerWrapper explain Req Resp handler))
    {from_ to_ : ActorId} {request : TReq} {correlation_id : Uuid} {timeout : Duration} {sent : Vec}
    (built : call_envelope Req from_ to_ request correlation_id timeout = .ok sent.val) :
    process_rpc_message explain registry sent.val =
      (handler (received from_ to_ request correlation_id timeout)).to_bytes Resp := by
  unfold call_envelope at built
  cases written : RpcRequest.to_bytes Req { from_,to_,payload := request,correlation_id,timeout } with
  | error e =>
    rw [written] at built
    cases built
  | ok payload =>
    rw [written] at built
    have sized := sent.property
    rw [show sent.val = RpcEnvelope.format.write ⟨Req.TYPE_NAME,payload,correlation_id⟩ from (Except.ok.inj built).symm]
      at sized ⊢
    have inner : payload.length < 2 ^ 63 := by
      have fewer := Format.blob_length payload
      rw [envelope_write,List.length_append,List.length_append] at sized
      dsimp only at sized
      omega
    unfold process_rpc_message deserialize
    rw [envelope_decode sized]
    show registry.dispatch Req.TYPE_NAME payload = _
    rw [RpcRegistry.dispatch,registered]
    show HandlerWrapper explain Req Resp handler payload = _
    unfold HandlerWrapper
    rw [request_arrives trips written inner]
    rfl

end

/-! ## The way back -/

section
variable (explain : Wire → Bytes → String) {TResp : Type} (Resp : RpcMessage TResp)

/-- The bytes resolve the pending call with this id, and its caller obtains this
    result. -/
def Resolves (correlation_id : Uuid) (result : Except RpcError TResp) (bytes : Bytes) : Prop :=
  ∀ (pending : PendingCalls) call, pending.lookup correlation_id = some call →
    ∃ payload, handle_response explain pending bytes = .ok (pending.erase correlation_id,some (call,payload)) ∧
      (Ending.answered payload).result explain Resp = result

/-- The payload of the response is larger than 64 GiB, it holds another response
    with the same value from its fifth byte on, and after that the id of the call. -/
def Disguised (correlation_id : Uuid) (response : RpcResponse TResp) : Prop :=
  ∃ v payload front tail name other inner junk, response.result = .ok v ∧ Resp.serialize v = .ok payload ∧
    utf8 name = Uuid.as_bytes response.correlation_id ∧
    payload = front ++ (Uuid.format.write correlation_id ++ tail) ∧
    payload.length / 2 ^ 32 = 16 ∧ front.length + 4 = 2 ^ 32 * (payload.length % 2 ^ 32) ∧
    le 4 16 ++ front = RawRpcResponse.format.write ⟨other,.ok inner⟩ ++ junk ∧ Resp.deserialize inner = .ok v

variable {explain} {Resp}

/-- Handling bytes that resolve a call is decoding an envelope of its id. -/
theorem resolves_iff (correlation_id : Uuid) (result : Except RpcError TResp) (bytes : Bytes) :
    Resolves explain Resp correlation_id result bytes ↔
      ∃ e, RpcEnvelope.format.decode bytes = some e ∧ e.correlation_id = correlation_id ∧
        (Ending.answered e.payload).result explain Resp = result := by
  constructor
  · intro resolves
    obtain ⟨payload,handled,result⟩ := resolves (AList.insert correlation_id ⟨0,0⟩ ∅) ⟨0,0⟩ (AList.lookup_insert _)
    rw [handle_response_eq] at handled
    cases decoded : RpcEnvelope.format.decode bytes with
    | none =>
      rw [decoded] at handled
      cases handled
    | some e =>
      rw [decoded] at handled
      obtain ⟨-,taken⟩ := Prod.mk.inj (Except.ok.inj handled)
      obtain ⟨call,found,same⟩ := Option.map_eq_some_iff.mp taken
      obtain ⟨-,rfl⟩ := Prod.mk.inj same
      rw [Dict.lookup_insert_ite] at found
      split at found
      · next own => exact ⟨e,rfl,own,result⟩
      · cases found
  · rintro ⟨e,decoded,rfl,result⟩ pending call found
    refine ⟨e.payload,?_,result⟩
    rw [handle_response_eq,decoded]
    dsimp only
    rw [found]
    rfl

/-- The payloads from which the caller obtains a value. -/
theorem answered_ok_iff {bytes : Bytes} (sized : bytes.length < 256 ^ 8) (v : TResp) :
    (Ending.answered bytes).result explain Resp = .ok v ↔
      ∃ other inner junk, bytes = RawRpcResponse.format.write ⟨other,.ok inner⟩ ++ junk ∧ Resp.deserialize inner = .ok v := by
  rw [answered_eq]
  constructor
  · intro result
    cases decoded : RawRpcResponse.format.decode bytes with
    | none =>
      rw [decoded] at result
      cases result
    | some raw =>
      rw [decoded] at result
      obtain ⟨-,junk,same⟩ := (Format.decode_eq_some ..).mp decoded
      obtain ⟨other,outcome⟩ := raw
      cases outcome with
      | error e => cases result
      | ok inner =>
        refine ⟨other,inner,junk,same,?_⟩
        cases read : Resp.deserialize inner with
        | error e =>
          simp only [read] at result
          cases result
        | ok w =>
          simp only [read] at result
          cases result
          rfl
  · rintro ⟨other,inner,junk,rfl,read⟩
    have fits : inner.length < 256 ^ 8 := by
      have fewer := Format.blob_length inner
      rw [response_write,Format.result_write_ok] at sized
      simp only [List.length_append] at sized
      omega
    have decoded : RawRpcResponse.format.decode (RawRpcResponse.format.write ⟨other,.ok inner⟩ ++ junk) =
        some ⟨other,.ok inner⟩ := by
      refine (Format.decode_eq_some ..).mpr ⟨(response_fits _).mpr ?_,junk,rfl⟩
      rw [Format.result_fits_ok,Format.blob_fits]
      exact fits
    rw [decoded]
    show (Resp.deserialize inner).mapError _ = _
    rw [read]
    rfl

/-- The length and the tag of a response, taken for the length of a payload. -/
theorem payload_after_tag {tag x : Nat} (small : tag < 256 ^ 4) (too : x < 256 ^ 4) {payload rest rest' : Bytes}
    (fits : payload.length < 256 ^ 8) :
    le 4 tag ++ (le 4 x ++ rest) = le 8 payload.length ++ (payload ++ rest') ↔
      payload.length = tag + 2 ^ 32 * x ∧ rest = payload ++ rest' := by
  have joined : le 4 tag ++ (le 4 x ++ rest) = le 8 (tag + 256 ^ 4 * x) ++ rest := by
    rw [← List.append_assoc,le_append small]
  rw [joined]
  constructor
  · intro same
    obtain ⟨lengths,rests⟩ := List.append_inj same (by simp)
    exact ⟨(le_inj (by omega) fits lengths).symm,rests⟩
  · rintro ⟨length,rfl⟩
    rw [length,show (256 : Nat) ^ 4 = 2 ^ 32 from rfl]

/-! ### A response with a value -/

/-- The envelopes that can be read from a response with this payload. -/
theorem decode_ok_iff (id : Uuid) {payload : Bytes} (sized : payload.length < 2 ^ 63) (e : RpcEnvelope) :
    RpcEnvelope.format.decode (RawRpcResponse.format.write ⟨id,.ok payload⟩) = some e ↔
      utf8 e.type_name = Uuid.as_bytes id ∧ e.payload.length = 2 ^ 32 * (payload.length % 2 ^ 32) ∧
        ∃ tail, le 4 (payload.length / 2 ^ 32) ++ payload = e.payload ++ (Uuid.format.write e.correlation_id ++ tail) := by
  have halves : le 8 payload.length ++ payload =
      le 4 (payload.length % 2 ^ 32) ++ (le 4 (payload.length / 2 ^ 32) ++ payload) := by
    rw [show 8 = 4 + 4 from rfl,le_add,← le_mod 4 payload.length,List.append_assoc,
      show (256 : Nat) ^ 4 = 2 ^ 32 from rfl]
  rw [response_write_ok id (by omega),decode_after_id,halves]
  refine and_congr_right' ?_
  constructor
  · rintro ⟨fits,tail,same⟩
    obtain ⟨length,rest⟩ := (payload_after_tag (by decide) (by omega) fits).mp same
    exact ⟨by omega,tail,rest⟩
  · rintro ⟨length,tail,rest⟩
    have fits : e.payload.length < 256 ^ 8 := by omega
    exact ⟨fits,tail,(payload_after_tag (by decide) (by omega) fits).mpr ⟨by omega,rest⟩⟩

/-- A response with a value is taken for its own envelope when it is disguised. -/
theorem ok_resolves_iff {correlation_id : Uuid} {response : RpcResponse TResp} {v : TResp} (value : response.result = .ok v)
    {payload : Bytes} (serialized : Resp.serialize v = .ok payload) (sized : payload.length < 2 ^ 63) :
    Resolves explain Resp correlation_id response.result
        (RawRpcResponse.format.write ⟨response.correlation_id,.ok payload⟩) ↔ Disguised Resp correlation_id response := by
  rw [resolves_iff]
  constructor
  · rintro ⟨e,decoded,rfl,result⟩
    obtain ⟨name,length,tail,split⟩ := (decode_ok_iff _ sized e).mp decoded
    rw [value] at result
    obtain ⟨other,inner,junk,nested,read⟩ := (answered_ok_iff (by omega) v).mp result
    obtain ⟨front,payload_eq⟩ : ∃ front, e.payload = le 4 16 ++ front := by
      rw [nested,response_write,uuid_write,show le 8 16 = le 4 16 ++ le 4 0 from rfl]
      simp only [List.append_assoc]
      exact ⟨_,rfl⟩
    rw [payload_eq,List.append_assoc] at split
    obtain ⟨quotient,split⟩ := List.append_inj split (by simp)
    have sixteen : payload.length / 2 ^ 32 = 16 := le_inj (by omega) (by decide) quotient
    rw [payload_eq,List.length_append,length_le] at length
    exact ⟨v,payload,front,tail,e.type_name,other,inner,junk,value,serialized,name,split,sixteen,by omega,
      payload_eq ▸ nested,read⟩
  · rintro ⟨w,payload',front,tail,name,other,inner,junk,same,serialized',named,split,sixteen,length,nested,read⟩
    rw [value] at same
    cases same
    rw [serialized] at serialized'
    cases serialized'
    have whole : (le 4 16 ++ front).length = 2 ^ 32 * (payload.length % 2 ^ 32) := by
      rw [List.length_append,length_le,← length,Nat.add_comm]
    refine ⟨⟨name,le 4 16 ++ front,correlation_id⟩,(decode_ok_iff _ sized _).mpr ⟨named,whole,tail,?_⟩,rfl,?_⟩
    · rw [sixteen,List.append_assoc,← split]
    · rw [value]
      exact (answered_ok_iff (by rw [whole]; omega) v).mpr ⟨other,inner,junk,nested,read⟩

/-! ### A response with an error -/

/-- The envelopes that can be read from a response with this error. -/
theorem decode_error {id : Uuid} {e : RawRpcError} {env : RpcEnvelope}
    (decoded : RpcEnvelope.format.decode (RawRpcResponse.format.write ⟨id,.error e⟩) = some env) :
    env.payload.length = 1 + 2 ^ 32 * e.tag ∧
      ∃ tail, (RawRpcError.variants e.tag).write e = env.payload ++ (Uuid.format.write env.correlation_id ++ tail) := by
  rw [response_write_error,decode_after_id] at decoded
  obtain ⟨-,fits,tail,same⟩ := decoded
  have small : e.tag < 256 ^ 4 := by cases e <;> simp [RawRpcError.tag]
  obtain ⟨length,rest⟩ := (payload_after_tag (by decide) small fits).mp same
  exact ⟨length,tail,rest⟩

/-- Only an error with a text is long enough to be taken for an envelope, and its
    payload is not a response. -/
theorem error_payload {id : Uuid} {e : RawRpcError} {env : RpcEnvelope}
    (sized : (RawRpcResponse.format.write ⟨id,.error e⟩).length < 2 ^ 63)
    (decoded : RpcEnvelope.format.decode (RawRpcResponse.format.write ⟨id,.error e⟩) = some env) :
    RawRpcResponse.format.decode env.payload = none ∧
      ∀ message, e = .SerializationError message → 2 ^ 32 ≤ (utf8 message).length := by
  obtain ⟨length,tail,rest⟩ := decode_error decoded
  have lengths := congrArg List.length rest
  simp only [List.length_append,length_uuid] at lengths
  have text : ∀ message, (RawRpcError.variants e.tag).write e = Format.blob.write (utf8 message) → 2 ≤ e.tag →
      RawRpcResponse.format.decode env.payload = none ∧ 2 ^ 32 ≤ (utf8 message).length := by
    intro message written tagged
    have fits : (utf8 message).length < 256 ^ 8 := by
      have fewer := Format.blob_length (utf8 message)
      rw [response_write_error,written] at sized
      simp only [List.length_append] at sized
      omega
    rw [written,Format.blob_write fits] at rest lengths
    simp only [List.length_append,length_le] at lengths
    refine ⟨Option.eq_none_iff_forall_ne_some.mpr fun raw found => ?_,by omega⟩
    obtain ⟨front,begins⟩ := response_front found
    rw [begins,List.append_assoc] at rest
    have sixteen : (utf8 message).length = 16 := le_inj fits (by decide) (List.append_inj rest (by simp)).1
    omega
  cases e with
  | Timeout =>
    have nothing : (RawRpcError.variants RawRpcError.Timeout.tag).write .Timeout = [] := rfl
    rw [nothing,List.length_nil] at lengths
    omega
  | ActorNotFound actor =>
    have written : (RawRpcError.variants (RawRpcError.ActorNotFound actor).tag).write (.ActorNotFound actor) =
      Uuid.format.write actor.uuid := rfl
    have tag : (RawRpcError.ActorNotFound actor).tag = 1 := rfl
    rw [written,length_uuid] at lengths
    omega
  | HandlerPanic message => exact ⟨(text message rfl (by simp [RawRpcError.tag])).1,fun _ same => by cases same⟩
  | InternalError message => exact ⟨(text message rfl (by simp [RawRpcError.tag])).1,fun _ same => by cases same⟩
  | SerializationError message =>
    obtain ⟨undecodable,long⟩ := text message rfl (by simp [RawRpcError.tag])
    refine ⟨undecodable,fun message' same => ?_⟩
    cases same
    exact long

/-- A response with an error resolves no call. -/
theorem error_unresolved (short : ∀ bytes, (utf8 (explain .Response bytes)).length < 2 ^ 32) {correlation_id : Uuid}
    {id : Uuid} {error : RpcError} (sized : (RawRpcResponse.format.write ⟨id,.error error.toRaw⟩).length < 2 ^ 63) :
    ¬ Resolves explain Resp correlation_id (.error error) (RawRpcResponse.format.write ⟨id,.error error.toRaw⟩) := by
  rw [resolves_iff]
  rintro ⟨env,decoded,-,result⟩
  obtain ⟨undecodable,long⟩ := error_payload sized decoded
  rw [answered_eq,undecodable] at result
  cases result
  have brief := short env.payload
  have lengthy := long _ rfl
  omega

end

/-! ## There and back -/

section
variable {explain : Wire → Bytes → String} {TReq TResp : Type} {Req : RpcMessage TReq} {Resp : RpcMessage TResp}

/-- A response that was written resolves the call only in disguise. -/
theorem reply_resolves_iff (short : ∀ bytes, (utf8 (explain .Response bytes)).length < 2 ^ 32) {correlation_id : Uuid}
    {response : RpcResponse TResp} {reply : Vec} (written : response.to_bytes Resp = .ok reply.val) :
    Resolves explain Resp correlation_id response.result reply.val ↔ Disguised Resp correlation_id response := by
  have sized := reply.property
  obtain ⟨id,result⟩ := response
  cases result with
  | error error =>
    have same : reply.val = RawRpcResponse.format.write ⟨id,.error error.toRaw⟩ := (Except.ok.inj written).symm
    rw [same] at sized ⊢
    refine iff_of_false (error_unresolved short sized) ?_
    rintro ⟨v,payload,front,tail,name,other,inner,junk,value,-⟩
    cases value
  | ok v =>
    cases serialized : Resp.serialize v with
    | error e =>
      simp only [RpcResponse.to_bytes,serialized] at written
      cases written
    | ok payload =>
      have same : reply.val = RawRpcResponse.format.write ⟨id,.ok payload⟩ := by
        simp only [RpcResponse.to_bytes,serialized] at written
        exact (Except.ok.inj written).symm
      rw [same] at sized ⊢
      have inner : payload.length < 2 ^ 63 := by
        have fewer := Format.blob_length payload
        rw [response_write,Format.result_write_ok] at sized
        simp only [List.length_append] at sized
        omega
      have value : (⟨id,.ok v⟩ : RpcResponse TResp).result = .ok v := rfl
      exact ok_resolves_iff value serialized inner

/-- The reply to a call resolves it and brings its caller the result of the
    handler exactly when there is no reply or the reply is disguised. -/
theorem round_trip_iff (trips : Req.RoundTrips) (short : ∀ bytes, (utf8 (explain .Response bytes)).length < 2 ^ 32)
    {registry : RpcRegistry} {handler : RpcRequest TReq → RpcResponse TResp}
    (registered : registry.handlers.lookup Req.TYPE_NAME = some (HandlerWrapper explain Req Resp handler))
    {from_ to_ : ActorId} {request : TReq} {correlation_id : Uuid} {timeout : Duration} {sent : Vec}
    (built : call_envelope Req from_ to_ request correlation_id timeout = .ok sent.val) :
    (∀ reply : Vec, process_rpc_message explain registry sent.val = .ok reply.val →
      Resolves explain Resp correlation_id (handler (received from_ to_ request correlation_id timeout)).result reply.val) ↔
    (∀ reply : Vec, (handler (received from_ to_ request correlation_id timeout)).to_bytes Resp ≠ .ok reply.val) ∨
      Disguised Resp correlation_id (handler (received from_ to_ request correlation_id timeout)) := by
  rw [process_call trips registered built]
  constructor
  · intro resolves
    by_cases replies : ∃ reply : Vec, (handler (received from_ to_ request correlation_id timeout)).to_bytes Resp = .ok reply.val
    · obtain ⟨reply,written⟩ := replies
      exact .inr ((reply_resolves_iff short written).mp (resolves reply written))
    · exact .inl (fun reply written => replies ⟨reply,written⟩)
  · rintro (never | disguised) reply written
    · exact absurd written (never reply)
    · exact (reply_resolves_iff short written).mpr disguised

end

/-! ### The messages of the tests -/

/-- A message that holds one unsigned integer. -/
def unsigned {T : Type} (TYPE_NAME : String) (width : Nat) (toNat : T → Nat) (ofNat : Nat → T) : RpcMessage T where
  TYPE_NAME
  serialize x := .ok (le width (toNat x))
  deserialize bytes := ((Format.uint width).decode bytes).elim (.error "io error: unexpected end of file")
    (fun n => .ok (ofNat n))

theorem unsigned_round_trips {T : Type} {name : String} {width : Nat} {toNat : T → Nat} {ofNat : Nat → T}
    (small : ∀ x, toNat x < 256 ^ width) (back : ∀ x, ofNat (toNat x) = x) : (unsigned name width toNat ofNat).RoundTrips := by
  intro x bytes serialized
  obtain rfl := Except.ok.inj serialized
  show ((Format.uint width).decode (le width (toNat x))).elim _ _ = _
  rw [← Format.uint_write (small x),Format.decode_write _ ((Format.uint_fits width _).mpr (small x))]
  show Except.ok (ofNat (toNat x)) = _
  rw [back]

structure TestRequest where
  value : UInt32

structure TestResponse where
  doubled : UInt64

def TestRequest.message : RpcMessage TestRequest := unsigned "TestRequest" 4 (·.value.toNat) (fun n => ⟨.ofNat n⟩)
def TestResponse.message : RpcMessage TestResponse := unsigned "TestResponse" 8 (·.doubled.toNat) (fun n => ⟨.ofNat n⟩)

def TestHandler (request : RpcRequest TestRequest) : RpcResponse TestResponse :=
  .ok request.correlation_id ⟨request.payload.value.toUInt64 * 2⟩

def FailingHandler (request : RpcRequest TestRequest) : RpcResponse TestResponse :=
  .error request.correlation_id (.HandlerPanic "Test failure")

theorem request_round_trips : TestRequest.message.RoundTrips :=
  unsigned_round_trips (fun x => x.value.toNat_lt) (fun x => by simp)

theorem response_round_trips : TestResponse.message.RoundTrips :=
  unsigned_round_trips (fun x => x.doubled.toNat_lt) (fun x => by simp)

/-- What `bincode` says about bytes that end too early. -/
def eof : Wire → Bytes → String := fun _ _ => "io error: unexpected end of file"

/-- The envelope of a call with id 7 that asks for the double of 21. -/
def question : Vec :=
  ⟨RpcEnvelope.format.write ⟨"TestRequest",RawRpcRequest.format.write ⟨⟨1⟩,⟨2⟩,le 4 21,7,30000,"TestRequest"⟩,7⟩,
    by decide +kernel⟩

def answer : Vec := ⟨RawRpcResponse.format.write ⟨7,.ok (le 8 42)⟩,by decide +kernel⟩

/-- The answer of the handler comes back, and the client rejects it. -/
theorem answer_is_no_envelope : TestRequest.message.RoundTrips ∧ TestResponse.message.RoundTrips ∧
    call_envelope TestRequest.message ⟨1⟩ ⟨2⟩ ⟨21⟩ 7 30000000000 = .ok question.val ∧
    process_rpc_message eof (RpcRegistry.register eof {} TestRequest.message TestResponse.message TestHandler)
      question.val = .ok answer.val ∧
    (∀ pending, handle_response eof pending answer.val =
      .error (.SerializationError "io error: unexpected end of file")) ∧
    ¬ Resolves eof TestResponse.message 7 (TestHandler (received ⟨1⟩ ⟨2⟩ ⟨21⟩ 7 30000000000)).result answer.val := by
  have undecodable : RpcEnvelope.format.decode answer.val = none := by decide +kernel
  have built : call_envelope TestRequest.message ⟨1⟩ ⟨2⟩ ⟨21⟩ 7 30000000000 = .ok question.val := rfl
  refine ⟨request_round_trips,response_round_trips,built,?_,fun pending => ?_,?_⟩
  · rw [process_call request_round_trips (RpcRegistry.lookup_register ..) built]
    rfl
  · rw [handle_response_eq,undecodable]
    rfl
  · rw [resolves_iff,undecodable]
    rintro ⟨e,decoded,-⟩
    cases decoded

/-- The caller does not learn either that the handler failed. -/
theorem round_trip_iff_failing : call_envelope TestRequest.message ⟨1⟩ ⟨2⟩ ⟨21⟩ 7 30000000000 = .ok question.val ∧
    (∃ reply : Vec, (FailingHandler (received ⟨1⟩ ⟨2⟩ ⟨21⟩ 7 30000000000)).to_bytes TestResponse.message = .ok reply.val) ∧
    ¬ ∀ reply : Vec, process_rpc_message eof
        (RpcRegistry.register eof {} TestRequest.message TestResponse.message FailingHandler) question.val = .ok reply.val →
      Resolves eof TestResponse.message 7 (FailingHandler (received ⟨1⟩ ⟨2⟩ ⟨21⟩ 7 30000000000)).result reply.val := by
  have built : call_envelope TestRequest.message ⟨1⟩ ⟨2⟩ ⟨21⟩ 7 30000000000 = .ok question.val := rfl
  let failure : Vec := ⟨RawRpcResponse.format.write ⟨7,.error (.HandlerPanic "Test failure")⟩,by decide +kernel⟩
  have replied : (FailingHandler (received ⟨1⟩ ⟨2⟩ ⟨21⟩ 7 30000000000)).to_bytes TestResponse.message = .ok failure.val := rfl
  refine ⟨built,⟨failure,replied⟩,fun resolves => ?_⟩
  have short : ∀ bytes, (utf8 (eof .Response bytes)).length < 2 ^ 32 := by
    intro bytes
    show (utf8 "io error: unexpected end of file").length < 2 ^ 32
    decide +kernel
  rcases (round_trip_iff request_round_trips short (RpcRegistry.lookup_register ..) built).mp resolves with never | disguised
  · exact never failure replied
  · obtain ⟨v,payload,front,tail,name,other,inner,junk,value,-⟩ := disguised
    cases value

end ActorKit.RpcRoundTrip
