import ActorKit.RpcRoundTrip

/-!
# What the codecs carry and what they check

Requests and responses travel through mirror types. A response comes back as it
was. A request comes back with its timeout in whole milliseconds, the unit of the
wire; and it comes back under any type that can read its payload, since the name
in the mirror type is written and never read.
-/

namespace ActorKit.RpcCodec
open ActorKit.rpc ActorKit.Bincode ActorKit.RpcWire ActorKit.RpcRoundTrip

section
variable {explain : Wire → Bytes → String} {T TReq TResp : Type} {M : RpcMessage T}

/-! ## Round trips -/

/-- A request as the wire can hold it. -/
def inMillis (request : RpcRequest T) : RpcRequest T :=
  { request with timeout := Duration.from_millis (Duration.as_millis request.timeout) }

theorem inMillis_eq_iff (request : RpcRequest T) : inMillis request = request ↔ 1000000 ∣ request.timeout := by
  obtain ⟨from_,to_,payload,correlation_id,timeout⟩ := request
  simp only [inMillis,RpcRequest.mk.injEq,true_and,Duration.from_millis,Duration.as_millis]
  exact ⟨fun whole => Dvd.intro_left _ whole,Nat.div_mul_cancel⟩

/-- A request is written exactly when its payload is. -/
theorem request_written {request : RpcRequest T} {payload : Bytes} (serialized : M.serialize request.payload = .ok payload) :
    ∃ bytes, request.to_bytes M = .ok bytes := by
  unfold RpcRequest.to_bytes
  rw [serialized]
  exact ⟨_,rfl⟩

theorem request_returns (trips : M.RoundTrips) {request : RpcRequest T} {bytes : Vec}
    (written : request.to_bytes M = .ok bytes.val) (short : Duration.as_millis request.timeout < 2 ^ 64) :
    RpcRequest.from_bytes explain M bytes.val = .ok (inMillis request) := by
  obtain ⟨from_,to_,payload,correlation_id,timeout⟩ := request
  rw [request_arrives trips written bytes.property,received,Nat.mod_eq_of_lt short]
  rfl

theorem response_written {response : RpcResponse T} (serialized : ∀ x, response.result = .ok x → ∃ payload, M.serialize x = .ok payload) :
    ∃ bytes, response.to_bytes M = .ok bytes := by
  unfold RpcResponse.to_bytes
  obtain ⟨id,result⟩ := response
  cases result with
  | error e => exact ⟨_,rfl⟩
  | ok x =>
    obtain ⟨payload,same⟩ := serialized x rfl
    dsimp only
    rw [same]
    exact ⟨_,rfl⟩

theorem response_returns (trips : M.RoundTrips) {response : RpcResponse T} {bytes : Vec}
    (written : response.to_bytes M = .ok bytes.val) : RpcResponse.from_bytes explain M bytes.val = .ok response := by
  have sized := bytes.property
  obtain ⟨id,result⟩ := response
  cases result with
  | error e =>
    have same : bytes.val = RawRpcResponse.format.write ⟨id,.error e.toRaw⟩ := (Except.ok.inj written).symm
    rw [same] at sized ⊢
    unfold RpcResponse.from_bytes deserialize
    rw [response_decode sized]
    show Except.ok (⟨id,.error (.ofRaw e.toRaw)⟩ : RpcResponse T) = _
    rw [RpcError.ofRaw_toRaw]
  | ok x =>
    cases serialized : M.serialize x with
    | error e =>
      simp only [RpcResponse.to_bytes,serialized] at written
      cases written
    | ok payload =>
      have same : bytes.val = RawRpcResponse.format.write ⟨id,.ok payload⟩ := by
        simp only [RpcResponse.to_bytes,serialized] at written
        exact (Except.ok.inj written).symm
      rw [same] at sized ⊢
      unfold RpcResponse.from_bytes deserialize
      rw [response_decode sized]
      show (do
        let payload ← (M.deserialize payload).mapError RpcError.SerializationError
        pure (⟨id,.ok payload⟩ : RpcResponse T)) = _
      rw [trips x payload serialized]
      rfl

/-- Responses come back as they were written. Requests come back with their
    timeout rounded down to milliseconds, so unchanged exactly when it was a whole
    number of them. -/
theorem wire_round_trips (explain : Wire → Bytes → String) (M : RpcMessage T) (trips : M.RoundTrips) :
    (∀ (request : RpcRequest T) payload, M.serialize request.payload = .ok payload → ∃ bytes, request.to_bytes M = .ok bytes) ∧
    (∀ (request : RpcRequest T) (bytes : Vec), request.to_bytes M = .ok bytes.val →
      Duration.as_millis request.timeout < 2 ^ 64 →
      RpcRequest.from_bytes explain M bytes.val = .ok (inMillis request) ∧
        (RpcRequest.from_bytes explain M bytes.val = .ok request ↔ 1000000 ∣ request.timeout)) ∧
    (∀ (response : RpcResponse T), (∀ x, response.result = .ok x → ∃ payload, M.serialize x = .ok payload) →
      ∃ bytes, response.to_bytes M = .ok bytes) ∧
    (∀ (response : RpcResponse T) (bytes : Vec), response.to_bytes M = .ok bytes.val →
      RpcResponse.from_bytes explain M bytes.val = .ok response) := by
  refine ⟨fun _ _ => request_written,fun request bytes written short => ?_,fun _ => response_written,
    fun _ _ => response_returns trips⟩
  have returned : RpcRequest.from_bytes explain M bytes.val = .ok (inMillis request) :=
    request_returns trips written short
  refine ⟨returned,?_⟩
  rw [returned,Except.ok.injEq]
  exact inMillis_eq_iff request

end

/-- A request with a timeout of one and a half milliseconds. -/
def halfMillis : RpcRequest TestRequest :=
  { from_ := ⟨1⟩,to_ := ⟨2⟩,payload := ⟨21⟩,correlation_id := 7,timeout := 1500000 }

/-- Its bytes. -/
def halfMillisBytes : Vec := ⟨RawRpcRequest.format.write ⟨⟨1⟩,⟨2⟩,le 4 21,7,1,"TestRequest"⟩,by decide +kernel⟩

theorem wire_round_trips_millis : TestRequest.message.RoundTrips ∧
    halfMillis.to_bytes TestRequest.message = .ok halfMillisBytes.val ∧
    RpcRequest.from_bytes eof TestRequest.message halfMillisBytes.val = .ok { halfMillis with timeout := 1000000 } ∧
    RpcResponse.from_bytes eof TestResponse.message answer.val = .ok (.ok 7 ⟨42⟩) := by
  have written : halfMillis.to_bytes TestRequest.message = .ok halfMillisBytes.val := rfl
  have requests := (wire_round_trips eof TestRequest.message request_round_trips).2.1 halfMillis halfMillisBytes written
    (by decide)
  have responses := (wire_round_trips eof TestResponse.message response_round_trips).2.2.2 (.ok 7 ⟨42⟩) answer rfl
  exact ⟨request_round_trips,written,requests.1,responses⟩

/-- The half millisecond is lost. -/
theorem half_millis_lost : halfMillis.to_bytes TestRequest.message = .ok halfMillisBytes.val ∧
    RpcRequest.from_bytes eof TestRequest.message halfMillisBytes.val ≠ .ok halfMillis := by
  have written : halfMillis.to_bytes TestRequest.message = .ok halfMillisBytes.val := rfl
  refine ⟨written,?_⟩
  rw [request_returns request_round_trips written (by decide),ne_eq,Except.ok.injEq,inMillis_eq_iff]
  decide

/-! ## Names on the wire -/

section
variable (explain : Wire → Bytes → String) {TReq TResp : Type}

/-- The bytes hold a request that was written under the name of this type. -/
def Labelled (Req : RpcMessage TReq) (bytes : Bytes) : Prop :=
  ∃ raw, RawRpcRequest.format.decode bytes = some raw ∧ raw.type_name = Req.TYPE_NAME

/-- The bytes are an envelope that routes this request to the handler of the
    type. -/
def Routed (Req : RpcMessage TReq) (envelope_bytes : Bytes) (request : RpcRequest TReq) : Prop :=
  ∃ envelope, RpcEnvelope.format.decode envelope_bytes = some envelope ∧ envelope.type_name = Req.TYPE_NAME ∧
    RpcRequest.from_bytes explain Req envelope.payload = .ok request

/-- Requests are decoded, dispatched and processed under their own name only. -/
structure Typed (Req : RpcMessage TReq) : Prop where
  decoded : ∀ bytes request, RpcRequest.from_bytes explain Req bytes = .ok request → Labelled Req bytes
  processed : ∀ envelope_bytes request, Routed explain Req envelope_bytes request →
    ∃ envelope, RpcEnvelope.format.decode envelope_bytes = some envelope ∧ Labelled Req envelope.payload

variable {explain} {Req : RpcMessage TReq} {Resp : RpcMessage TResp}

/-- What a request is decoded from: a raw request under any name, and its
    payload. -/
theorem from_bytes_ok_iff (bytes : Bytes) (request : RpcRequest TReq) :
    RpcRequest.from_bytes explain Req bytes = .ok request ↔
      ∃ raw, RawRpcRequest.format.decode bytes = some raw ∧ Req.deserialize raw.payload = .ok request.payload ∧
        request = ⟨raw.from_,raw.to_,request.payload,raw.correlation_id,Duration.from_millis raw.timeout_ms⟩ := by
  unfold RpcRequest.from_bytes deserialize
  cases RawRpcRequest.format.decode bytes with
  | none =>
    refine iff_of_false (fun same => by cases same) ?_
    rintro ⟨raw,none,-⟩
    cases none
  | some raw =>
    show (do
      let payload ← (Req.deserialize raw.payload).mapError RpcError.SerializationError
      pure (⟨raw.from_,raw.to_,payload,raw.correlation_id,Duration.from_millis raw.timeout_ms⟩ : RpcRequest TReq)) =
        .ok request ↔ _
    cases read : Req.deserialize raw.payload with
    | error e =>
      refine iff_of_false (fun same => by cases same) ?_
      rintro ⟨raw',same,read',-⟩
      cases same
      rw [read] at read'
      cases read'
    | ok x =>
      constructor
      · intro same
        cases same
        exact ⟨raw,rfl,read,rfl⟩
      · rintro ⟨raw',same,read',shape⟩
        cases same
        rw [read] at read'
        rw [shape,← Except.ok.inj read']
        rfl

/-- The handler of the type is run on what is routed to it. -/
theorem routed_processed {registry : RpcRegistry} {handler : RpcRequest TReq → RpcResponse TResp}
    (registered : registry.handlers.lookup Req.TYPE_NAME = some (HandlerWrapper explain Req Resp handler))
    {envelope_bytes : Bytes} {request : RpcRequest TReq} (routed : Routed explain Req envelope_bytes request) :
    process_rpc_message explain registry envelope_bytes = (handler request).to_bytes Resp := by
  obtain ⟨envelope,opened,named,decoded⟩ := routed
  unfold process_rpc_message deserialize
  rw [opened]
  show registry.dispatch envelope.type_name envelope.payload = _
  rw [RpcRegistry.dispatch,named,registered]
  show HandlerWrapper explain Req Resp handler envelope.payload = _
  unfold HandlerWrapper
  rw [decoded]
  rfl

/-- A payload that a type can read is accepted under every name. -/
theorem mislabelled_accepted {payload : Bytes} {x : TReq} (sized : payload.length < 256 ^ 8)
    (read : Req.deserialize payload = .ok x) {name : String} (short : (utf8 name).length < 256 ^ 8) :
    ∃ bytes request, RawRpcRequest.format.decode bytes = some ⟨⟨0⟩,⟨0⟩,payload,0,0,name⟩ ∧
      RpcRequest.from_bytes explain Req bytes = .ok request := by
  have decoded : RawRpcRequest.format.decode (RawRpcRequest.format.write ⟨⟨0⟩,⟨0⟩,payload,0,0,name⟩) =
      some ⟨⟨0⟩,⟨0⟩,payload,0,0,name⟩ :=
    Format.decode_write _ ((request_fits _).mpr ⟨sized,by dsimp only; decide,short⟩)
  refine ⟨_,⟨⟨0⟩,⟨0⟩,x,0,Duration.from_millis 0⟩,decoded,?_⟩
  exact (from_bytes_ok_iff _ _).mpr ⟨_,decoded,read,rfl⟩

/-- Some short name is not the name of the type. -/
theorem other_name (name : String) : ∃ other, other ≠ name ∧ (utf8 other).length < 256 ^ 8 := by
  by_cases empty : name = ""
  · exact ⟨"?",by rw [empty]; decide,by decide +kernel⟩
  · exact ⟨"",Ne.symm empty,by decide +kernel⟩

/-- Accepted bytes carry the name of the type exactly when a request under
    another name has a payload that the type cannot read. -/
theorem labelled_iff (bytes : Bytes) :
    (∀ request, RpcRequest.from_bytes explain Req bytes = .ok request → Labelled Req bytes) ↔
      ∀ raw, RawRpcRequest.format.decode bytes = some raw → raw.type_name ≠ Req.TYPE_NAME →
        ∀ x, Req.deserialize raw.payload ≠ .ok x := by
  constructor
  · intro labelled raw decoded different x read
    obtain ⟨raw',found,named⟩ := labelled ⟨raw.from_,raw.to_,x,raw.correlation_id,Duration.from_millis raw.timeout_ms⟩
      ((from_bytes_ok_iff _ _).mpr ⟨raw,decoded,read,rfl⟩)
    rw [decoded] at found
    cases found
    exact different named
  · intro unreadable request accepted
    obtain ⟨raw,decoded,read,-⟩ := (from_bytes_ok_iff bytes request).mp accepted
    refine ⟨raw,decoded,?_⟩
    by_contra different
    exact unreadable raw decoded different _ read

/-- Requests are delivered under their own name only, exactly when the type can
    read no payload at all. -/
theorem typed_dispatch_iff (registry : RpcRegistry) (handler : RpcRequest TReq → RpcResponse TResp)
    (registered : registry.handlers.lookup Req.TYPE_NAME = some (HandlerWrapper explain Req Resp handler)) :
    (∀ envelope_bytes request, Routed explain Req envelope_bytes request →
      process_rpc_message explain registry envelope_bytes = (handler request).to_bytes Resp) ∧
    (∀ bytes, (∀ request, RpcRequest.from_bytes explain Req bytes = .ok request → Labelled Req bytes) ↔
      ∀ raw, RawRpcRequest.format.decode bytes = some raw → raw.type_name ≠ Req.TYPE_NAME →
        ∀ x, Req.deserialize raw.payload ≠ .ok x) ∧
    (Typed explain Req ↔ ∀ payload, payload.length < 2 ^ 64 → ∀ x, Req.deserialize payload ≠ .ok x) := by
  refine ⟨fun _ _ => routed_processed registered,labelled_iff,?_⟩
  constructor
  · intro typed payload sized x read
    obtain ⟨other,different,short⟩ := other_name Req.TYPE_NAME
    obtain ⟨bytes,request,decoded,accepted⟩ := @mislabelled_accepted explain _ Req payload x (by omega) read other short
    obtain ⟨raw,found,named⟩ := typed.decoded bytes request accepted
    rw [decoded] at found
    cases found
    exact different named
  · intro unreadable
    have never : ∀ bytes request, RpcRequest.from_bytes explain Req bytes ≠ .ok request := by
      intro bytes request accepted
      obtain ⟨raw,decoded,read,-⟩ := (from_bytes_ok_iff bytes request).mp accepted
      have fits := ((request_fits raw).mp ((Format.decode_eq_some ..).mp decoded).1).1
      exact unreadable raw.payload (by omega) _ read
    refine ⟨fun bytes request accepted => absurd accepted (never bytes request),?_⟩
    rintro envelope_bytes request ⟨envelope,-,-,accepted⟩
    exact absurd accepted (never envelope.payload request)

end

/-- A type without values. -/
def never : RpcMessage Empty where
  TYPE_NAME := "Never"
  serialize := Empty.elim
  deserialize _ := .error "invalid type: unit value, expected an empty enum"

theorem typed_dispatch_never :
    Typed eof never ∧ ¬ Typed eof TestRequest.message := by
  have impossible := @typed_dispatch_iff eof _ _ never TestResponse.message
    (RpcRegistry.register eof {} never TestResponse.message (fun request => request.payload.elim))
    (fun request => request.payload.elim) (RpcRegistry.lookup_register ..)
  have usable := @typed_dispatch_iff eof _ _ TestRequest.message TestResponse.message
    (RpcRegistry.register eof {} TestRequest.message TestResponse.message TestHandler) TestHandler
    (RpcRegistry.lookup_register ..)
  refine ⟨impossible.2.2.mpr (fun _ _ x => x.elim),fun typed => ?_⟩
  exact usable.2.2.mp typed (le 4 21) (by decide) ⟨21⟩ (request_round_trips ⟨21⟩ _ rfl)

/-- An increment that happens to be written like a request of the tests. -/
def Increment.message : RpcMessage UInt32 := unsigned "Increment" 4 (·.toNat) .ofNat

/-- The bytes of an increment by 21. -/
def increment : Vec := ⟨RawRpcRequest.format.write ⟨⟨1⟩,⟨2⟩,le 4 21,7,30000,"Increment"⟩,by decide +kernel⟩

/-- In an envelope with the name of the test request an increment reaches the
    handler, which doubles it. -/
theorem increment_doubled :
    RpcRequest.to_bytes Increment.message ⟨⟨1⟩,⟨2⟩,21,7,30000000000⟩ = .ok increment.val ∧
    process_rpc_message eof (RpcRegistry.register eof {} TestRequest.message TestResponse.message TestHandler)
      (RpcEnvelope.format.write ⟨"TestRequest",increment.val,7⟩) = .ok answer.val ∧
    ¬ Typed eof TestRequest.message := by
  have decoded : RawRpcRequest.format.decode increment.val = some ⟨⟨1⟩,⟨2⟩,le 4 21,7,30000,"Increment"⟩ :=
    request_decode increment.property (by decide)
  have accepted : RpcRequest.from_bytes eof TestRequest.message increment.val =
      .ok ⟨⟨1⟩,⟨2⟩,⟨21⟩,7,30000000000⟩ :=
    (from_bytes_ok_iff _ _).mpr ⟨_,decoded,request_round_trips ⟨21⟩ _ rfl,rfl⟩
  have routed : Routed eof TestRequest.message (RpcEnvelope.format.write ⟨"TestRequest",increment.val,7⟩)
      ⟨⟨1⟩,⟨2⟩,⟨21⟩,7,30000000000⟩ := ⟨_,envelope_decode (by decide +kernel),rfl,accepted⟩
  refine ⟨rfl,?_,fun typed => ?_⟩
  · rw [routed_processed (RpcRegistry.lookup_register ..) routed]
    rfl
  · obtain ⟨raw,found,named⟩ := typed.decoded _ _ accepted
    rw [decoded] at found
    cases found
    revert named
    decide

end ActorKit.RpcCodec
