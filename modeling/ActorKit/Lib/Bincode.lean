import Mathlib.Data.PEquiv
import Mathlib.Tactic.Common
import Mathlib.Tactic.Ring

/-!
# Bincode

The fixed-width binary format of bincode 1.3: little-endian integers, lengths in
eight bytes, variant tags in four, strings checked to be UTF-8. A format reads a
value from the front of a byte string and leaves the rest, and what it reads are
exactly the encodings of the values it can carry.
-/

namespace ActorKit.Bincode

abbrev Bytes := List UInt8

/-! ## Little-endian integers -/

/-- The `width` low bytes of a number, lowest first. -/
def le : Nat → Nat → Bytes
  | 0,_ => []
  | width + 1,x => UInt8.ofNat x :: le width (x / 256)

/-- The number that bytes stand for, lowest first. -/
def value : Bytes → Nat
  | [] => 0
  | b :: bytes => b.toNat + 256 * value bytes

@[simp] theorem length_le (width x : Nat) : (le width x).length = width := by
  induction width generalizing x with
  | zero => rfl
  | succ width ih => simp [le,ih]

theorem value_lt (bytes : Bytes) : value bytes < 256 ^ bytes.length := by
  induction bytes with
  | nil => simp [value]
  | cons b bytes ih =>
    have digit : b.toNat < 256 := b.toNat_lt
    simp only [value,List.length_cons,Nat.pow_succ]
    omega

@[simp] theorem value_le (width x : Nat) : value (le width x) = x % 256 ^ width := by
  induction width generalizing x with
  | zero => simp [le,value,Nat.mod_one]
  | succ width ih =>
    have digit : (UInt8.ofNat x).toNat = x % 256 := UInt8.toNat_ofNat
    rw [le,value,ih,digit,Nat.pow_succ,Nat.mul_comm (256 ^ width),Nat.mod_mul]

@[simp] theorem le_value (bytes : Bytes) : le bytes.length (value bytes) = bytes := by
  induction bytes with
  | nil => rfl
  | cons b bytes ih =>
    have digit : b.toNat < 256 := b.toNat_lt
    have low : UInt8.ofNat (b.toNat + 256 * value bytes) = b := by
      apply UInt8.toNat_inj.mp
      rw [UInt8.toNat_ofNat']
      omega
    have high : (b.toNat + 256 * value bytes) / 256 = value bytes := by omega
    rw [List.length_cons,value,le,low,high,ih]

/-- The low bytes of a number, then the high ones. -/
theorem le_add (low high x : Nat) : le (low + high) x = le low x ++ le high (x / 256 ^ low) := by
  induction low generalizing x with
  | zero => simp [le]
  | succ low ih =>
    rw [Nat.succ_add,le,le,ih,Nat.div_div_eq_div_mul,Nat.pow_succ,Nat.mul_comm 256,List.cons_append]

theorem value_inj {a b : Bytes} (sized : a.length = b.length) (same : value a = value b) : a = b := by
  rw [← le_value a,← le_value b,sized,same]

/-- What lies above `width` bytes is not written. -/
theorem le_mod (width x : Nat) : le width (x % 256 ^ width) = le width x := by
  refine value_inj (by simp) ?_
  rw [value_le,value_le,Nat.mod_mod]

/-- Two integers side by side are one of their common width. -/
theorem le_append {low x : Nat} (fits : x < 256 ^ low) (high y : Nat) :
    le low x ++ le high y = le (low + high) (x + 256 ^ low * y) := by
  have positive : 0 < 256 ^ low := Nat.pow_pos (by decide)
  rw [le_add,Nat.add_mul_div_left x y positive,Nat.div_eq_of_lt fits,Nat.zero_add,
    ← le_mod low (x + 256 ^ low * y),Nat.add_mul_mod_self_left,le_mod]

theorem le_inj {width x y : Nat} (fits : x < 256 ^ width) (too : y < 256 ^ width) (same : le width x = le width y) :
    x = y := by
  have values := congrArg value same
  rwa [value_le,value_le,Nat.mod_eq_of_lt fits,Nat.mod_eq_of_lt too] at values

/-- The numbers that fit into `width` bytes, and these bytes. -/
def digits (width : Nat) : Nat ≃. Bytes where
  toFun x := if x < 256 ^ width then some (le width x) else none
  invFun bytes := if bytes.length = width then some (value bytes) else none
  inv x bytes := by
    constructor
    · intro back
      split at back
      · next sized =>
        cases back
        subst sized
        rw [if_pos (value_lt bytes),le_value]
      · cases back
    · intro forth
      split at forth
      · next fits =>
        cases forth
        rw [if_pos (length_le width x),value_le,Nat.mod_eq_of_lt fits]
      · cases forth

theorem digits_small {width x : Nat} (fits : x < 256 ^ width) : digits width x = some (le width x) := if_pos fits

theorem digits_large {width x : Nat} (large : ¬ x < 256 ^ width) : digits width x = none := if_neg large

/-! ## Text -/

/-- The UTF-8 bytes of a string. -/
def utf8 (s : String) : Bytes := s.toByteArray.data.toList

/-- The strings, and the bytes that are valid UTF-8. -/
def text : String ≃. Bytes where
  toFun s := some (utf8 s)
  invFun bytes := String.fromUTF8? ⟨⟨bytes⟩⟩
  inv s bytes := by
    rw [Option.some_inj,utf8,String.fromUTF8?]
    constructor
    · intro back
      split at back
      · cases back; rfl
      · cases back
    · rintro rfl
      exact dif_pos s.isValidUTF8

/-- A variant of a type: the values built by `wrap`, and what they hold. -/
def variant {α β : Type} (wrap : α → β) (unwrap : β → Option α) (inv : ∀ y x, some (wrap x) = some y ↔ unwrap y = some x) :
    β ≃. α where
  toFun := unwrap
  invFun x := some (wrap x)
  inv := inv

/-! ## Formats -/

/-- A format for values of `α`: it reads from the front of a byte string. -/
structure Format (α : Type) where
  write : α → Bytes
  read : Bytes → Option (α × Bytes)
  /-- The values that can be read back. -/
  Fits : α → Prop
  exact (bytes : Bytes) (x : α) (rest : Bytes) : read bytes = some (x,rest) ↔ Fits x ∧ bytes = write x ++ rest

namespace Format
variable {α β : Type}

/-- The value at the front of the bytes; what follows it is ignored. -/
def decode (f : Format α) (bytes : Bytes) : Option α := (f.read bytes).map (·.1)

theorem decode_eq_some (f : Format α) (bytes : Bytes) (x : α) :
    f.decode bytes = some x ↔ f.Fits x ∧ ∃ rest, bytes = f.write x ++ rest := by
  rw [decode,Option.map_eq_some_iff]
  constructor
  · rintro ⟨⟨y,rest⟩,found,rfl⟩
    obtain ⟨fits,same⟩ := (f.exact bytes y rest).mp found
    exact ⟨fits,rest,same⟩
  · rintro ⟨fits,rest,same⟩
    exact ⟨(x,rest),(f.exact bytes x rest).mpr ⟨fits,same⟩,rfl⟩

/-- Reading back what was written. -/
theorem decode_write (f : Format α) {x : α} (fits : f.Fits x) : f.decode (f.write x) = some x :=
  (f.decode_eq_some _ x).mpr ⟨fits,[],(List.append_nil _).symm⟩

/-- A value with no encoding of its own. -/
def unit : Format Unit where
  write _ := []
  read bytes := some ((),bytes)
  Fits _ := True
  exact bytes x rest := by simp

/-- Nothing can be read. -/
def empty : Format α where
  write _ := []
  read _ := none
  Fits _ := False
  exact bytes x rest := by simp

/-- A given number of raw bytes. -/
def raw (n : Nat) : Format Bytes where
  write bytes := bytes
  read bytes := if n ≤ bytes.length then some (bytes.take n,bytes.drop n) else none
  Fits bytes := bytes.length = n
  exact bytes x rest := by
    constructor
    · intro found
      split at found
      · cases found
        exact ⟨List.length_take_of_le ‹_›,(List.take_append_drop n bytes).symm⟩
      · cases found
    · rintro ⟨rfl,rfl⟩
      simp

/-- A value in another shape. -/
def via (f : Format α) (shape : β ≃. α) : Format β where
  write y := (shape y).elim [] f.write
  read bytes := (f.read bytes).bind (fun (x,rest) => (shape.symm x).map (·,rest))
  Fits y := ∃ x, shape y = some x ∧ f.Fits x
  exact bytes y rest := by
    rw [Option.bind_eq_some_iff]
    constructor
    · rintro ⟨⟨x,left⟩,found,shaped⟩
      obtain ⟨y',back,same⟩ := Option.map_eq_some_iff.mp shaped
      cases same
      obtain ⟨fits,same⟩ := (f.exact bytes x rest).mp found
      have forth := shape.eq_some_iff.mp back
      rw [forth]
      exact ⟨⟨x,rfl,fits⟩,same⟩
    · rintro ⟨⟨x,forth,fits⟩,rfl⟩
      rw [forth]
      refine ⟨(x,rest),(f.exact _ x rest).mpr ⟨fits,rfl⟩,?_⟩
      dsimp only
      rw [shape.eq_some_iff.mpr forth]
      rfl

theorem via_fits (f : Format α) {shape : β ≃. α} {x : α} {y : β} (forth : shape y = some x) :
    (f.via shape).Fits y ↔ f.Fits x := by
  constructor
  · rintro ⟨x',forth',fits⟩
    rw [forth] at forth'
    cases forth'
    exact fits
  · intro fits
    exact ⟨x,forth,fits⟩

/-- One value after another. -/
def pair (f : Format α) (g : Format β) : Format (α × β) where
  write p := f.write p.1 ++ g.write p.2
  read bytes := (f.read bytes).bind (fun (x,rest) => (g.read rest).map (fun (y,rest) => ((x,y),rest)))
  Fits p := f.Fits p.1 ∧ g.Fits p.2
  exact bytes p rest := by
    obtain ⟨x,y⟩ := p
    rw [Option.bind_eq_some_iff]
    constructor
    · rintro ⟨⟨x',left⟩,found,second⟩
      obtain ⟨⟨y',rest'⟩,found',same⟩ := Option.map_eq_some_iff.mp second
      cases same
      obtain ⟨fits,rfl⟩ := (f.exact bytes x left).mp found
      obtain ⟨fits',rfl⟩ := (g.exact left y rest).mp found'
      exact ⟨⟨fits,fits'⟩,(List.append_assoc ..).symm⟩
    · rintro ⟨⟨fits,fits'⟩,rfl⟩
      have found : g.read (g.write y ++ rest) = some (y,rest) := (g.exact _ y rest).mpr ⟨fits',rfl⟩
      refine ⟨(x,g.write y ++ rest),(f.exact _ x _).mpr ⟨fits,List.append_assoc ..⟩,?_⟩
      dsimp only
      rw [found]
      rfl

/-- A value whose format depends on a key that is written before it. -/
def keyed (f : Format α) (key : β → α) (g : α → Format β) (own : ∀ k y, (g k).Fits y → key y = k) : Format β where
  write y := f.write (key y) ++ (g (key y)).write y
  read bytes := (f.read bytes).bind (fun (k,rest) => (g k).read rest)
  Fits y := f.Fits (key y) ∧ (g (key y)).Fits y
  exact bytes y rest := by
    rw [Option.bind_eq_some_iff]
    constructor
    · rintro ⟨⟨k,left⟩,found,found'⟩
      obtain ⟨fits,rfl⟩ := (f.exact bytes k left).mp found
      obtain ⟨fits',rfl⟩ := ((g k).exact left y rest).mp found'
      obtain rfl := own k y fits'
      exact ⟨⟨fits,fits'⟩,(List.append_assoc ..).symm⟩
    · rintro ⟨⟨fits,fits'⟩,rfl⟩
      exact ⟨(key y,(g (key y)).write y ++ rest),(f.exact _ _ _).mpr ⟨fits,List.append_assoc ..⟩,
        ((g (key y)).exact _ y rest).mpr ⟨fits',rfl⟩⟩

/-- An unsigned integer of `width` bytes. -/
def uint (width : Nat) : Format Nat := (raw width).via (digits width)

theorem uint_fits (width x : Nat) : (uint width).Fits x ↔ x < 256 ^ width := by
  constructor
  · rintro ⟨bytes,forth,-⟩
    by_contra large
    rw [digits_large large] at forth
    cases forth
  · intro fits
    exact ⟨le width x,digits_small fits,length_le width x⟩

theorem uint_write {width x : Nat} (fits : x < 256 ^ width) : (uint width).write x = le width x := by
  show (digits width x).elim [] id = le width x
  rw [digits_small fits]
  rfl

/-- A byte vector: its length, then its bytes. -/
def blob : Format Bytes := (uint 8).keyed List.length raw (fun _ _ fits => fits)

theorem blob_fits (bytes : Bytes) : blob.Fits bytes ↔ bytes.length < 256 ^ 8 := by
  show (uint 8).Fits bytes.length ∧ bytes.length = bytes.length ↔ _
  rw [uint_fits]
  exact and_iff_left rfl

theorem blob_write {bytes : Bytes} (fits : bytes.length < 256 ^ 8) : blob.write bytes = le 8 bytes.length ++ bytes := by
  show (uint 8).write bytes.length ++ bytes = _
  rw [uint_write fits]

/-- A string: a byte vector that is valid UTF-8. -/
def string : Format String := blob.via text

theorem blob_length (bytes : Bytes) : bytes.length ≤ (blob.write bytes).length := by
  show bytes.length ≤ ((uint 8).write bytes.length ++ bytes).length
  rw [List.length_append]
  exact Nat.le_add_left ..

theorem string_fits (s : String) : string.Fits s ↔ (utf8 s).length < 256 ^ 8 := by
  rw [← blob_fits]
  exact via_fits blob rfl

section
variable {ε : Type} (f : Format α) (g : Format ε)

def okay : Except ε α ≃. α :=
  variant .ok (fun | .ok x => some x | .error _ => none) (by rintro (_ | _) _ <;> simp [eq_comm])

def failed : Except ε α ≃. ε :=
  variant .error (fun | .error e => some e | .ok _ => none) (by rintro (_ | _) _ <;> simp [eq_comm])

/-- What follows the tag of a result. -/
def results : Nat → Format (Except ε α)
  | 0 => f.via okay
  | 1 => g.via failed
  | _ => empty

/-- A result: variant zero is the value, variant one the error. -/
def result : Format (Except ε α) :=
  (uint 4).keyed (fun | .ok _ => 0 | .error _ => 1) (results f g) (by
    intro k r fits
    match k,fits with
    | 0,fits | 1,fits =>
      obtain ⟨x,shape,-⟩ := fits
      cases r <;> first | rfl | cases shape
    | _ + 2,fits => exact fits.elim)

theorem result_fits_ok (x : α) : (result f g).Fits (.ok x) ↔ f.Fits x := by
  show (uint 4).Fits 0 ∧ (f.via okay).Fits (.ok x) ↔ f.Fits x
  rw [uint_fits,via_fits f (show (okay : Except ε α ≃. α) (.ok x) = some x from rfl)]
  exact and_iff_right (by decide)

theorem result_fits_error (e : ε) : (result f g).Fits (.error e) ↔ g.Fits e := by
  show (uint 4).Fits 1 ∧ (g.via failed).Fits (.error e) ↔ g.Fits e
  rw [uint_fits,via_fits g (show (failed : Except ε α ≃. ε) (.error e) = some e from rfl)]
  exact and_iff_right (by decide)

theorem result_write_ok (x : α) : (result f g).write (.ok x) = le 4 0 ++ f.write x := rfl

theorem result_write_error (e : ε) : (result f g).write (.error e) = le 4 1 ++ g.write e := rfl

end

end Format
end ActorKit.Bincode
