import ActorKit.Lib.Codes
import ActorKit.Sim.Texts

/-!
# The encoding of the trace

The entries of a trace follow each other without separators. The tag byte of an
entry fixes how many fields follow it, and tag and fields give the entry back, so
that two traces feed the hash the same bytes only when they are the same.
-/

namespace ActorKit.Sim.Encoding
open ActorKit.sim ActorKit.Codes
open ActorKit.Sim.Texts (from_to_le_bytes)

/-- How many fields follow a tag byte. -/
def arity : UInt8 → Nat
  | 0 | 7 => 1
  | 1 | 6 | 8 | 10 | 11 => 2
  | _ => 3

theorem fields_arity (op : TraceOp) : op.fields.2.length = arity op.fields.1 := by
  cases op <;> rfl

/-- The entry that a tag byte and fields come from. -/
def read : UInt8 × List UInt64 → Option TraceOp
  | (0,[ord]) => some (.Spawn ord)
  | (1,[mid,target]) => some (.Send mid target)
  | (2,[first,len,target]) => some (.BatchSend first len target)
  | (3,[mid,target,reason]) => some (.Reject mid target (if reason = 0 then .Fault else .DeadTarget))
  | (4,[first,len,target]) => some (.Deliver first len target)
  | (5,[first,len,target]) => some (.Blocked first len target)
  | (6,[mid,target]) => some (.Process mid target)
  | (7,[target]) => some (.ProcessSystem target)
  | (8,[target,dropped]) => some (.Crash target dropped)
  | (9,[first,len,target]) => some (.Discard first len target)
  | (10,[target,allowed]) => some (.Restart target (decide (allowed = 1)))
  | (11,[target,dropped]) => some (.Kill target dropped)
  | _ => none

theorem read_fields (op : TraceOp) : read op.fields = some op := by
  cases op with
  | Reject mid target reason => cases reason <;> rfl
  | Restart target allowed => cases allowed <;> rfl
  | _ => rfl

theorem fields_injective : Function.Injective TraceOp.fields := by
  intro op op' same
  exact Option.some.inj (by rw [← read_fields op,← read_fields op',same])

@[simp] theorem length_to_le_bytes (x : UInt64) : (to_le_bytes x).length = 8 := by
  simp [to_le_bytes]

/-- Integers of eight bytes are a code. -/
theorem integers_prefixFree : PrefixFree to_le_bytes := by
  refine prefixFree_of_length length_to_le_bytes (fun x y same => ?_)
  rw [← from_to_le_bytes x,← from_to_le_bytes y,same]

theorem integers_inj {xs ys : List UInt64} : xs.flatMap to_le_bytes = ys.flatMap to_le_bytes ↔ xs = ys := by
  refine integers_prefixFree.flatMap_inj (fun x empty => ?_)
  have sized := length_to_le_bytes x
  simp [empty] at sized

theorem length_integers (xs : List UInt64) : (xs.flatMap to_le_bytes).length = 8 * xs.length := by
  induction xs with
  | nil => rfl
  | cons x xs ih =>
    simp only [List.flatMap_cons,List.length_append,length_to_le_bytes,ih,List.length_cons]
    omega

/-- The encodings of the entries are a code. -/
theorem encode_prefixFree : PrefixFree TraceOp.encode := by
  refine prefixFree_of_tag (fun op op' tags => ?_) (fun op op' tags bodies => ?_)
  · rw [length_integers,length_integers,fields_arity,fields_arity,tags]
  · exact fields_injective (Prod.ext tags (integers_inj.mp bodies))

/-- Two traces are written alike only when they are the same, and the trace hash is
    the hash of what is written. -/
theorem trace_bytes_determine_trace :
    (∀ t₁ t₂ : List TraceOp, t₁.flatMap TraceOp.encode = t₂.flatMap TraceOp.encode ↔ t₁ = t₂) ∧
    ∀ s : Sim, s.trace_hash = fnv1a (s.trace.flatMap TraceOp.encode) := by
  refine ⟨fun t₁ t₂ => ?_,fun s => rfl⟩
  exact encode_prefixFree.flatMap_inj (fun op => List.cons_ne_nil _ _)

end ActorKit.Sim.Encoding
