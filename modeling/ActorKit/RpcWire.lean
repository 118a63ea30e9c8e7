import ActorKit.Rpc

/-!
# The bytes of requests, responses and envelopes

What each wire format writes, field by field, and which values it can carry. A
vector of bytes has less than 2^63 elements, so whatever fits into one can be
read back.
-/

namespace ActorKit.RpcWire
open ActorKit.rpc ActorKit.Bincode

/-- The vectors that memory can hold. -/
abbrev Vec := { bytes : Bytes // bytes.length < 2 ^ 63 }

/-! ## Ids -/

theorem uuid_write (id : Uuid) : Uuid.format.write id = le 8 16 ++ Uuid.as_bytes id := by
  have written : Uuid.format.write id = Format.blob.write (Uuid.as_bytes id) := rfl
  rw [written,Format.blob_write (by rw [Uuid.length_as_bytes]; decide),Uuid.length_as_bytes]

theorem uuid_fits (id : Uuid) : Uuid.format.Fits id := by
  refine (Format.via_fits Format.blob (show Uuid.slice id = some (Uuid.as_bytes id) from rfl)).mpr ?_
  rw [Format.blob_fits,Uuid.length_as_bytes]
  decide

theorem actor_fits (id : ActorId) : ActorId.format.Fits id :=
  (Format.via_fits Uuid.format rfl).mpr (uuid_fits id.uuid)

theorem length_uuid (id : Uuid) : (Uuid.format.write id).length = 24 := by
  rw [uuid_write,List.length_append,length_le,Uuid.length_as_bytes]

/-! ## Envelopes -/

theorem envelope_write (e : RpcEnvelope) : RpcEnvelope.format.write e =
    Format.blob.write (utf8 e.type_name) ++ (Format.blob.write e.payload ++ Uuid.format.write e.correlation_id) := rfl

theorem envelope_fits (e : RpcEnvelope) : RpcEnvelope.format.Fits e ↔
    (utf8 e.type_name).length < 256 ^ 8 ∧ e.payload.length < 256 ^ 8 := by
  rw [← Format.string_fits,← Format.blob_fits]
  refine (Format.via_fits _ rfl).trans ?_
  exact and_congr_right' (and_iff_left (uuid_fits e.correlation_id))

/-- What an envelope in a vector holds is read back. -/
theorem envelope_decode {e : RpcEnvelope} (sized : (RpcEnvelope.format.write e).length < 2 ^ 63) :
    RpcEnvelope.format.decode (RpcEnvelope.format.write e) = some e := by
  have name := Format.blob_length (utf8 e.type_name)
  have payload := Format.blob_length e.payload
  refine Format.decode_write _ ((envelope_fits e).mpr ?_)
  rw [envelope_write,List.length_append,List.length_append] at sized
  constructor <;> omega

/-- Bytes that begin with an id, read as an envelope: the id is taken for the name. -/
theorem decode_after_id (id : Uuid) (body : Bytes) (e : RpcEnvelope) :
    RpcEnvelope.format.decode (Uuid.format.write id ++ body) = some e ↔
      utf8 e.type_name = Uuid.as_bytes id ∧ e.payload.length < 256 ^ 8 ∧
        ∃ tail, body = le 8 e.payload.length ++ (e.payload ++ (Uuid.format.write e.correlation_id ++ tail)) := by
  rw [Format.decode_eq_some,envelope_fits,envelope_write,uuid_write]
  constructor
  · rintro ⟨⟨named,sized⟩,tail,same⟩
    rw [Format.blob_write named,Format.blob_write sized] at same
    simp only [List.append_assoc] at same
    obtain ⟨lengths,same⟩ := List.append_inj same (by simp)
    have sixteen : 16 = (utf8 e.type_name).length := le_inj (by decide) named lengths
    obtain ⟨name,same⟩ := List.append_inj same (by rw [Uuid.length_as_bytes,sixteen])
    exact ⟨name.symm,sized,tail,same⟩
  · rintro ⟨name,sized,tail,rfl⟩
    have named : (utf8 e.type_name).length = 16 := by rw [name,Uuid.length_as_bytes]
    refine ⟨⟨by rw [named]; decide,sized⟩,tail,?_⟩
    rw [Format.blob_write (by rw [named]; decide),Format.blob_write sized,named,name]
    simp only [List.append_assoc]

/-! ## Requests -/

theorem request_write (r : RawRpcRequest) : RawRpcRequest.format.write r =
    Uuid.format.write r.from_.uuid ++ (Uuid.format.write r.to_.uuid ++ (Format.blob.write r.payload ++
      (Uuid.format.write r.correlation_id ++ ((Format.uint 8).write r.timeout_ms ++
        Format.blob.write (utf8 r.type_name))))) := rfl

theorem request_fits (r : RawRpcRequest) : RawRpcRequest.format.Fits r ↔
    r.payload.length < 256 ^ 8 ∧ r.timeout_ms < 256 ^ 8 ∧ (utf8 r.type_name).length < 256 ^ 8 := by
  rw [← Format.blob_fits,← Format.uint_fits,← Format.string_fits]
  refine (Format.via_fits _ rfl).trans ?_
  refine (and_iff_right (actor_fits r.from_)).trans ((and_iff_right (actor_fits r.to_)).trans ?_)
  exact and_congr_right' (and_iff_right (uuid_fits r.correlation_id))

theorem request_decode {r : RawRpcRequest} (sized : (RawRpcRequest.format.write r).length < 2 ^ 63)
    (timeout : r.timeout_ms < 2 ^ 64) : RawRpcRequest.format.decode (RawRpcRequest.format.write r) = some r := by
  have name := Format.blob_length (utf8 r.type_name)
  have payload := Format.blob_length r.payload
  refine Format.decode_write _ ((request_fits r).mpr ?_)
  simp only [request_write,List.length_append] at sized
  refine ⟨?_,?_,?_⟩ <;> omega

/-! ## Responses -/

theorem response_write (r : RawRpcResponse) : RawRpcResponse.format.write r =
    Uuid.format.write r.correlation_id ++ (Format.result Format.blob RawRpcError.format).write r.result := rfl

theorem response_fits (r : RawRpcResponse) : RawRpcResponse.format.Fits r ↔
    (Format.result Format.blob RawRpcError.format).Fits r.result := by
  have fields : RawRpcResponse.fields.toPEquiv r = some (r.correlation_id,r.result) := rfl
  rw [RawRpcResponse.format,Format.via_fits _ fields]
  constructor
  · exact fun fits => fits.2
  · exact fun fits => ⟨uuid_fits r.correlation_id,fits⟩

/-- The bytes of a response that carries a payload. -/
theorem response_write_ok (id : Uuid) {payload : Bytes} (fits : payload.length < 256 ^ 8) :
    RawRpcResponse.format.write ⟨id,.ok payload⟩ = Uuid.format.write id ++ (le 4 0 ++ (le 8 payload.length ++ payload)) := by
  rw [response_write,Format.result_write_ok,Format.blob_write fits]

/-- The bytes of a response that carries an error. -/
theorem response_write_error (id : Uuid) (e : RawRpcError) : RawRpcResponse.format.write ⟨id,.error e⟩ =
    Uuid.format.write id ++ (le 4 1 ++ (le 4 e.tag ++ (RawRpcError.variants e.tag).write e)) := by
  rw [response_write,Format.result_write_error]
  cases e <;> rfl

/-- An error whose bytes are in a vector can be read back. -/
theorem error_fits {e : RawRpcError} (sized : ((RawRpcError.variants e.tag).write e).length < 2 ^ 63) :
    RawRpcError.format.Fits e := by
  refine ⟨(Format.uint_fits 4 e.tag).mpr (by cases e <;> simp [RawRpcError.tag]),?_⟩
  have texts : ∀ message : String, (Format.blob.write (utf8 message)).length < 2 ^ 63 → Format.string.Fits message := by
    intro message short
    have fewer := Format.blob_length (utf8 message)
    exact (Format.string_fits message).mpr (by omega)
  cases e with
  | Timeout => exact ⟨(),rfl,trivial⟩
  | ActorNotFound id => exact ⟨id,rfl,actor_fits id⟩
  | HandlerPanic message | SerializationError message | InternalError message =>
    exact ⟨message,rfl,texts message sized⟩

/-- What a response in a vector holds is read back. -/
theorem response_decode {r : RawRpcResponse} (sized : (RawRpcResponse.format.write r).length < 2 ^ 63) :
    RawRpcResponse.format.decode (RawRpcResponse.format.write r) = some r := by
  refine Format.decode_write _ ((response_fits r).mpr ?_)
  obtain ⟨id,result⟩ := r
  cases result with
  | ok payload =>
    have fewer := Format.blob_length payload
    rw [response_write,Format.result_write_ok] at sized
    simp only [List.length_append] at sized
    rw [Format.result_fits_ok,Format.blob_fits]
    omega
  | error e =>
    rw [response_write_error] at sized
    simp only [List.length_append] at sized
    rw [Format.result_fits_error]
    exact error_fits (by omega)

/-- A response begins with the length of its id. -/
theorem response_front {bytes : Bytes} {r : RawRpcResponse} (decoded : RawRpcResponse.format.decode bytes = some r) :
    ∃ rest, bytes = le 8 16 ++ rest := by
  obtain ⟨-,rest,rfl⟩ := (Format.decode_eq_some ..).mp decoded
  rw [response_write,uuid_write]
  simp only [List.append_assoc]
  exact ⟨_,rfl⟩

end ActorKit.RpcWire
