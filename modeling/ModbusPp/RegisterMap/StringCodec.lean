import ModbusPp.RegisterMap.TypeCodec

/-! Strings in registers, there and back. `encode_string` widens a `char` to sixteen bits
with its sign, so a character with the top bit set fills the upper byte of its word with
ones. At an even position that byte is shifted out, at an odd one it is joined to the
character before it, which comes back as `0xFF`. -/

namespace ModbusPp.TypeCodec

open Foundation

/-- The upper byte of a widened `char`. -/
def signByte (c : UInt8) : UInt8 := if 0x80 ≤ c then 0xFF else 0

/-- `n` registers of characters, in pairs. -/
def packChars : ℕ → List UInt8 → List UInt16
  | 0, _ => []
  | n + 1, [] => List.replicate (n + 1) 0
  | n + 1, [a] => word a 0 :: List.replicate n 0
  | n + 1, a :: b :: str => word (a ||| signByte b) b :: packChars n str

/-- What comes back: the first character of a pair takes the sign of the second. -/
def smear : List UInt8 → List UInt8
  | [] => []
  | [a] => [a]
  | a :: b :: str => (a ||| signByte b) :: b :: smear str

/-- Of the pairs in the first `n` registers, each with the top bit set in its second
character has `0xFF` as its first. -/
def SignsHarmless (str : List UInt8) (n : ℕ) : Prop :=
  ∀ k < n, ∀ c, str[2 * k + 1]? = some c → 0x80 ≤ c → str[2 * k]? = some 0xFF

/-! ### Widened characters -/

theorem charWord_eq (c : UInt8) : charWord c = word (signByte c) c := by
  have hall : ∀ b : BitVec 8, charWord ⟨b⟩ = word (signByte ⟨b⟩) ⟨b⟩ := by decide +kernel
  exact hall c.toBitVec

theorem shiftLeft_charWord (c : UInt8) : charWord c <<< 8 = word c 0 := by
  have hall : ∀ b : BitVec 8, charWord ⟨b⟩ <<< 8 = word ⟨b⟩ 0 := by decide +kernel
  exact hall c.toBitVec

theorem word_or (a b c : UInt8) : word a 0 ||| word b c = word (a ||| b) c := by
  have hzero : (0 : UInt8).toUInt16 = 0 := rfl
  rw [word, word, word, UInt8.toUInt16_or, UInt16.shiftLeft_or, hzero, UInt16.or_zero,
    UInt16.or_assoc]

theorem or_signByte_eq_left {a b : UInt8} : a ||| signByte b = a ↔ (0x80 ≤ b → a = 0xFF) := by
  rw [signByte]
  split_ifs with hsign
  · have hall : ∀ x : BitVec 8, (⟨x⟩ : UInt8) ||| 0xFF = 0xFF := by decide +kernel
    rw [hall a.toBitVec, eq_comm]
    simp [hsign]
  · simp [hsign]

theorem or_signByte_ne_zero {a : UInt8} (ha : a ≠ 0) (b : UInt8) : a ||| signByte b ≠ 0 := by
  intro hzero
  exact ha (UInt8.or_eq_zero_iff.mp hzero).1

/-! ### Encoding -/

theorem set_done (done regs : List UInt16) (reg reg' : UInt16) :
    (done ++ reg :: regs).set (2 * done.length / 2) reg' = done ++ reg' :: regs := by
  rw [Nat.mul_div_cancel_left _ two_pos, List.set_append_right _ _ le_rfl, Nat.sub_self,
    List.set_cons_zero]

theorem modify_done (done regs : List UInt16) (reg : UInt16) (f : UInt16 → UInt16) :
    (done ++ reg :: regs).modify ((2 * done.length + 1) / 2) f = done ++ f reg :: regs := by
  have hhalf : (2 * done.length + 1) / 2 = done.length := by omega
  rw [hhalf, List.modify_eq_take_cons_drop (by simp)]
  simp

theorem encodeChars_packChars (n : ℕ) (str : List UInt8) (done : List UInt16) :
    encodeChars str (2 * done.length) (done ++ List.replicate n 0) = done ++ packChars n str := by
  induction n generalizing str done with
  | zero =>
    cases str with
    | nil => rfl
    | cons c str => rw [encodeChars, if_neg (by simp), packChars, List.replicate_zero]
  | succ n ih =>
    have hroom :
      2 * done.length / 2 < (done ++ List.replicate (n + 1) (0 : UInt16)).length := by simp
    rcases str with _ | ⟨a, _ | ⟨b, str⟩⟩
    · rfl
    · rw [encodeChars, if_pos hroom, if_pos (by omega), encodeChars, shiftLeft_charWord, packChars,
        List.replicate_succ, set_done]
    · have hfirst :
        (done ++ List.replicate (n + 1) 0).set (2 * done.length / 2) (charWord a <<< 8) =
          done ++ word a 0 :: List.replicate n 0 := by
        rw [shiftLeft_charWord, List.replicate_succ, set_done]
      have hsecond : (done ++ word a 0 :: List.replicate n 0).modify
        ((2 * done.length + 1) / 2) (· ||| charWord b) =
          done ++ [word (a ||| signByte b) b] ++ List.replicate n 0 := by
        rw [modify_done, charWord_eq, word_or, List.append_assoc, List.singleton_append]
      rw [encodeChars, if_pos hroom, if_pos (by omega), hfirst, encodeChars,
        if_pos (by simp; omega),
        if_neg (by omega), hsecond]
      have hlen : 2 * done.length + 1 + 1 = 2 * (done ++ [word (a ||| signByte b) b]).length := by
        simp; omega
      rw [hlen, ih, packChars, List.append_assoc, List.singleton_append]

theorem encodeString_eq (str : List UInt8) (maxRegisters : UInt16) :
    encodeString str maxRegisters = packChars maxRegisters.toNat str :=
  encodeChars_packChars maxRegisters.toNat str []

/-! ### Decoding -/

theorem read_append (done regs : List UInt16) (reg : UInt16) :
    (Span.ofList (done ++ reg :: regs)).read done.length = .ok reg :=
  (Span.views_ofList _).read (by simp)

/-- The loop gives back the smeared characters of the registers from there on. -/
theorem decodeChars_packChars (n : ℕ) (str : List UInt8) (hstr : ∀ c ∈ str, c ≠ 0)
    (done : List UInt16) (result : List UInt8) :
    decodeChars (.ofList (done ++ packChars n str)) n done.length result =
      .ok (result ++ smear (str.take (2 * n))) := by
  induction n generalizing str done result with
  | zero => rw [decodeChars, mul_zero, List.take_zero, smear, List.append_nil, pure_eq_ok]
  | succ n ih =>
    rcases str with _ | ⟨a, _ | ⟨b, str⟩⟩
    · rw [decodeChars, packChars, List.replicate_succ, read_append, ok_bind, if_pos (by decide),
        List.take_nil, smear, List.append_nil, pure_eq_ok]
    · have ha : a ≠ 0 := hstr a List.mem_cons_self
      rw [decodeChars, packChars, read_append, ok_bind, hiByte_word, loByte_word,
        if_neg ha, if_pos rfl,
        List.take_of_length_le (by simp; omega), smear, pure_eq_ok]
    · have ha : a ||| signByte b ≠ 0 := or_signByte_ne_zero (hstr a List.mem_cons_self) b
      have hb : b ≠ 0 := hstr b (by simp)
      have hrest : ∀ c ∈ str, c ≠ 0 := fun c hc => hstr c (by simp [hc])
      have hlen : done.length + 1 = (done ++ [word (a ||| signByte b) b]).length := by simp
      have hnext :=
        ih str hrest (done ++ [word (a ||| signByte b) b]) (result ++ [a ||| signByte b, b])
      rw [List.append_assoc, List.singleton_append] at hnext
      rw [decodeChars, packChars, read_append, ok_bind, hiByte_word, loByte_word, if_neg ha,
        if_neg hb, hlen, hnext,
        show 2 * (n + 1) = 2 * n + 1 + 1 by
          ring, List.take_succ_cons, List.take_succ_cons, smear, List.append_assoc]
      rfl

theorem smear_eq_iff (str : List UInt8) (n : ℕ) :
    smear (str.take (2 * n)) = str.take (2 * n) ↔ SignsHarmless str n := by
  induction n generalizing str with
  | zero => simp [smear, SignsHarmless]
  | succ n ih =>
    rcases str with _ | ⟨a, _ | ⟨b, str⟩⟩
    · simp [smear, SignsHarmless]
    · rw [List.take_of_length_le (by simp; omega), smear, SignsHarmless]
      simp
    · rw [show 2 * (n + 1) = 2 * n + 1 + 1 by ring, List.take_succ_cons, List.take_succ_cons,
        smear, List.cons.injEq, List.cons.injEq, or_signByte_eq_left, ih, SignsHarmless,
        SignsHarmless, Nat.forall_lt_succ_left]
      simp [mul_add]

/-- A string without zero bytes comes back as far as it fits exactly if no character of the
odd positions that fit sets the upper byte of its register. -/
theorem string_round_trips_iff (str : List UInt8) (hstr : ∀ c ∈ str, c ≠ 0)
    (maxRegisters : UInt16) :
    decodeString (.ofList (encodeString str maxRegisters)) maxRegisters =
      .ok (str.take (2 * maxRegisters.toNat)) ↔
      SignsHarmless str maxRegisters.toNat := by
  have hdecode := decodeChars_packChars maxRegisters.toNat str hstr [] []
  rw [List.nil_append, List.nil_append] at hdecode
  rw [decodeString, encodeString_eq, ← smear_eq_iff]
  rw [List.length_nil] at hdecode
  rw [hdecode, Except.ok.injEq]

/-- "Hello" in three registers. -/
theorem string_round_trips_hello :
    decodeString (.ofList (encodeString [0x48, 0x65, 0x6C, 0x6C, 0x6F] 3)) 3 =
        .ok (([0x48, 0x65, 0x6C, 0x6C, 0x6F] : List UInt8).take (2 * (3 : UInt16).toNat)) ↔
      SignsHarmless [0x48, 0x65, 0x6C, 0x6C, 0x6F] (3 : UInt16).toNat :=
  string_round_trips_iff _ (by simp) 3

/-- "aé" in UTF-8: the letter before the two-byte character is lost. -/
theorem accented_letter_lost :
    ¬∀ (str : List UInt8) (maxRegisters : UInt16), (∀ c ∈ str, c ≠ 0) →
      decodeString (.ofList (encodeString str maxRegisters)) maxRegisters =
        .ok (str.take (2 * maxRegisters.toNat)) := by
  intro hall
  have hback := hall [0x61, 0xC3, 0xA9] 2 (by simp)
  have hlost : decodeString (.ofList (encodeString [0x61, 0xC3, 0xA9] 2)) 2 =
    .ok [0xFF, 0xC3, 0xA9] := by decide
  rw [hlost] at hback
  exact absurd hback (by decide)

end ModbusPp.TypeCodec
