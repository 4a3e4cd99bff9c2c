import HyprlandAgent.JsonLoads

-- The bytes that UTF-8 gives to characters, read back.
namespace JsonLoads

theorem lt_iff (a : UInt8) (k : Nat) (small : k < 256) : a < UInt8.ofNat k ↔ a.toNat < k := by
  rw [UInt8.lt_iff_toNat_lt,UInt8.toNat_ofNat',Nat.mod_eq_of_lt small]

theorem le_iff (a : UInt8) (k : Nat) (small : k < 256) : UInt8.ofNat k ≤ a ↔ k ≤ a.toNat := by
  rw [UInt8.le_iff_toNat_le,UInt8.toNat_ofNat',Nat.mod_eq_of_lt small]

section
variable {a b c d : UInt8} {more : List UInt8}

theorem trails_iff : trails b = true ↔ 0x80 ≤ b.toNat ∧ b.toNat < 0xc0 := by
  unfold trails
  rw [Bool.and_eq_true,decide_eq_true_eq,decide_eq_true_eq]
  exact and_congr (le_iff b 0x80 (by decide)) (lt_iff b 0xc0 (by decide))

theorem utf8Text_one (lead : a.toNat < 0x80) : utf8Text (a :: more) = (utf8Text more).map (a.toNat :: ·) := by
  rw [utf8Text.eq_def]
  exact if_pos ((lt_iff a 0x80 (by decide)).mpr lead)

theorem utf8Text_two (low : 0xc2 ≤ a.toNat) (high : a.toNat < 0xe0) (trail : trails b = true) :
    utf8Text (a :: b :: more) = (utf8Text more).map (utf8Point (a.toNat - 0xc0) [b] :: ·) := by
  have wide : ¬a < 0x80 := fun less => absurd ((lt_iff a 0x80 (by decide)).mp less) (by omega)
  have from_ : 0xc2 ≤ a := (le_iff a 0xc2 (by decide)).mpr low
  have below : a < 0xe0 := (lt_iff a 0xe0 (by decide)).mpr high
  rw [utf8Text.eq_def]
  simp only [if_neg wide,from_,below,trail,decide_true,Bool.and_self,if_true]

theorem utf8Text_three (low : 0xe0 ≤ a.toNat) (high : a.toNat < 0xf0) (first : trails b = true) (second : trails c = true)
    (short : 0x800 ≤ utf8Point (a.toNat - 0xe0) [b,c]) :
    utf8Text (a :: b :: c :: more) = (utf8Text more).map (utf8Point (a.toNat - 0xe0) [b,c] :: ·) := by
  have wide : ¬a < 0x80 := fun less => absurd ((lt_iff a 0x80 (by decide)).mp less) (by omega)
  have beyond : ¬a < 0xe0 := fun less => absurd ((lt_iff a 0xe0 (by decide)).mp less) (by omega)
  have from_ : 0xe0 ≤ a := (le_iff a 0xe0 (by decide)).mpr low
  have below : a < 0xf0 := (lt_iff a 0xf0 (by decide)).mpr high
  rw [utf8Text.eq_def]
  simp only [if_neg wide,beyond,from_,below,first,second,short,decide_true,decide_false,Bool.and_self,Bool.and_false,
    Bool.false_and,Bool.false_eq_true,if_true,if_false]

theorem utf8Text_four (low : 0xf0 ≤ a.toNat) (high : a.toNat < 0xf8) (first : trails b = true) (second : trails c = true)
    (third : trails d = true) (short : 0x10000 ≤ utf8Point (a.toNat - 0xf0) [b,c,d])
    (within : utf8Point (a.toNat - 0xf0) [b,c,d] < 0x110000) :
    utf8Text (a :: b :: c :: d :: more) = (utf8Text more).map (utf8Point (a.toNat - 0xf0) [b,c,d] :: ·) := by
  have wide : ¬a < 0x80 := fun less => absurd ((lt_iff a 0x80 (by decide)).mp less) (by omega)
  have beyond : ¬a < 0xe0 := fun less => absurd ((lt_iff a 0xe0 (by decide)).mp less) (by omega)
  have past : ¬a < 0xf0 := fun less => absurd ((lt_iff a 0xf0 (by decide)).mp less) (by omega)
  have from_ : 0xf0 ≤ a := (le_iff a 0xf0 (by decide)).mpr low
  have below : a < 0xf8 := (lt_iff a 0xf8 (by decide)).mpr high
  rw [utf8Text.eq_def]
  simp only [if_neg wide,beyond,past,from_,below,first,second,third,short,within,decide_true,decide_false,Bool.and_self,
    Bool.and_false,Bool.false_and,Bool.false_eq_true,if_true,if_false]

end

theorem toNat_ofNat {n : Nat} (small : n < 256) : (UInt8.ofNat n).toNat = n := by
  rw [UInt8.toNat_ofNat',Nat.mod_eq_of_lt small]

theorem trails_ofNat (n : Nat) : trails (UInt8.ofNat (n % 0x40 + 0x80)) = true := by
  rw [trails_iff,toNat_ofNat (by omega)]
  omega

theorem utf8Text_char (char : Char) (rest : List UInt8) :
    utf8Text (String.utf8EncodeChar char ++ rest) = (utf8Text rest).map (char.toNat :: ·) := by
  have range : char.toNat < 0xd800 ∨ 0xdfff < char.toNat ∧ char.toNat < 0x110000 := char.valid
  have val : char.val.toNat = char.toNat := rfl
  unfold String.utf8EncodeChar
  rw [val]
  generalize char.toNat = v at range
  have trail (n : Nat) : (UInt8.ofNat (n % 0x40 + 0x80)).toNat = n % 0x40 + 0x80 := toNat_ofNat (by omega)
  dsimp only
  split
  · have small : v < 256 := by omega
    rw [List.singleton_append,utf8Text_one (by rw [toNat_ofNat small]; omega),toNat_ofNat small]
  · split
    · have lead : (UInt8.ofNat (v / 64 % 0x20 + 0xc0)).toNat = v / 64 % 0x20 + 0xc0 := toNat_ofNat (by omega)
      have point : utf8Point (v / 64 % 0x20 + 0xc0 - 0xc0) [UInt8.ofNat (v % 0x40 + 0x80)] = v := by
        simp only [utf8Point,List.foldl_cons,List.foldl_nil,trail]
        omega
      simp only [List.cons_append,List.nil_append]
      rw [utf8Text_two (by omega) (by omega) (trails_ofNat v),lead,point]
    · split
      · have lead : (UInt8.ofNat (v / 4096 % 0x10 + 0xe0)).toNat = v / 4096 % 0x10 + 0xe0 := toNat_ofNat (by omega)
        have point : utf8Point (v / 4096 % 0x10 + 0xe0 - 0xe0)
            [UInt8.ofNat (v / 64 % 0x40 + 0x80),UInt8.ofNat (v % 0x40 + 0x80)] = v := by
          simp only [utf8Point,List.foldl_cons,List.foldl_nil,trail]
          omega
        simp only [List.cons_append,List.nil_append]
        rw [utf8Text_three (by omega) (by omega) (trails_ofNat _) (trails_ofNat v) (by rw [lead,point]; omega),lead,point]
      · have lead : (UInt8.ofNat (v / 262144 % 0x08 + 0xf0)).toNat = v / 262144 % 0x08 + 0xf0 := toNat_ofNat (by omega)
        have point : utf8Point (v / 262144 % 0x08 + 0xf0 - 0xf0) [UInt8.ofNat (v / 4096 % 0x40 + 0x80),
            UInt8.ofNat (v / 64 % 0x40 + 0x80),UInt8.ofNat (v % 0x40 + 0x80)] = v := by
          simp only [utf8Point,List.foldl_cons,List.foldl_nil,trail]
          omega
        simp only [List.cons_append,List.nil_append]
        rw [utf8Text_four (by omega) (by omega) (trails_ofNat _) (trails_ofNat _) (trails_ofNat v)
          (by rw [lead,point]; omega) (by rw [lead,point]; omega),lead,point]
theorem utf8Text_chars (chars : List Char) :
    utf8Text (chars.flatMap String.utf8EncodeChar) = some (chars.map Char.toNat) := by
  induction chars with
  | nil => rfl
  | cons char rest ih => rw [List.flatMap_cons,utf8Text_char,ih,List.map_cons,Option.map_some]

theorem detectEncoding_plain {one two : Char} {rest : List Char} (first : 0 < one.toNat ∧ one.toNat < 0x80)
    (second : 0 < two.toNat ∧ two.toNat < 0x80) :
    detectEncoding ((one :: two :: rest).flatMap String.utf8EncodeChar) = .utf8 := by
  have single {char : Char} (plain : char.toNat < 0x80) : String.utf8EncodeChar char = [UInt8.ofNat char.toNat] :=
    if_pos (show char.val.toNat ≤ 0x7f from Nat.le_of_lt_succ plain)
  rw [List.flatMap_cons,List.flatMap_cons,single first.2,single second.2]
  have small := toNat_ofNat (show one.toNat < 256 by omega)
  have other := toNat_ofNat (show two.toNat < 256 by omega)
  generalize UInt8.ofNat one.toNat = a at small
  generalize UInt8.ofNat two.toNat = b at other
  have apart (k : UInt8) (outside : k.toNat = 0 ∨ 0x80 ≤ k.toNat) : a ≠ k ∧ b ≠ k := by
    constructor <;> rintro rfl <;> omega
  have plain (k : UInt8) (outside : k.toNat = 0 ∨ 0x80 ≤ k.toNat) : (k == a) = false :=
    beq_eq_false_iff_ne.mpr (Ne.symm (apart k outside).1)
  have zero := apart 0 (.inl rfl)
  simp only [List.singleton_append]
  unfold detectEncoding bomUtf32be bomUtf32le bomUtf16be bomUtf16le bomUtf8
  simp only [List.isPrefixOf,plain 0 (.inl rfl),plain 0xff (.inr (by decide)),plain 0xfe (.inr (by decide)),
    plain 0xef (.inr (by decide)),Bool.false_and,Bool.or_self,Bool.false_eq_true,if_false]
  split
  · rename_i x y _ _ _ same
    obtain ⟨rfl,later⟩ := List.cons.inj same
    obtain ⟨rfl,_⟩ := List.cons.inj later
    rw [if_neg zero.1,if_neg zero.2]
  · rename_i same
    obtain ⟨rfl,later⟩ := List.cons.inj same
    obtain ⟨rfl,_⟩ := List.cons.inj later
    rw [if_neg zero.1,if_neg zero.2]
  · rfl

end JsonLoads
