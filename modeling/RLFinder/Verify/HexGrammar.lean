import Mathlib.Algebra.Field.Rat
import Mathlib.Tactic.NormNum
import RLFinder.HexConverter

/-!
# The grammar of hex colours

A colour is written as six hexadecimal digits in any mix of cases (`Spells`). The parser reads each
of them as it should (`hexStringToUIColor_of_spells`), but it rejects by the number of characters
alone: what has six characters once upper-cased is never the fallback colour (`ofRgbValue_ne_gray`).
So it meets its grammar exactly on the strings that are in it or that do not have six characters
(`meetsGrammar_iff`).
-/

namespace RLFinder

/-! ## The grammar -/

def upperDigits : Vector Char 16 :=
  #v['0', '1', '2', '3', '4', '5', '6', '7', '8', '9', 'A', 'B', 'C', 'D', 'E', 'F']

def lowerDigits : Vector Char 16 :=
  #v['0', '1', '2', '3', '4', '5', '6', '7', '8', '9', 'a', 'b', 'c', 'd', 'e', 'f']

/-- A character is a hexadecimal digit of either case. -/
def SpellsDigit (c : Char) (d : Fin 16) : Prop := c = upperDigits.get d ∨ c = lowerDigits.get d

/-- Two characters are the digits of a byte. -/
def SpellsByte (c₁ c₂ : Char) (n : Nat) : Prop :=
  ∃ d₁ d₂ : Fin 16, SpellsDigit c₁ d₁ ∧ SpellsDigit c₂ d₂ ∧ n = 16 * d₁ + d₂

structure Rgb where
  red : Nat
  green : Nat
  blue : Nat

/-- The string consists of the digits of the three bytes. -/
def Spells (s : List Char) (rgb : Rgb) : Prop :=
  ∃ r₁ r₂ g₁ g₂ b₁ b₂, s = [r₁, r₂, g₁, g₂, b₁, b₂] ∧
    SpellsByte r₁ r₂ rgb.red ∧ SpellsByte g₁ g₂ rgb.green ∧ SpellsByte b₁ b₂ rgb.blue

def Rgb.color (rgb : Rgb) : UIColor := ⟨rgb.red / 255, rgb.green / 255, rgb.blue / 255, 1⟩

/-- The parser gives the colour of a string of the grammar, and the fallback for any other. -/
def MeetsGrammar (u : UnicodeData) (s : String) : Prop :=
  (∀ rgb, Spells s.toList rgb → hexStringToUIColor u s = rgb.color) ∧
    ((∀ rgb, ¬ Spells s.toList rgb) → hexStringToUIColor u s = .gray)

/-! ## Digits -/

variable {u : UnicodeData} {s : List Char} {c : Char} {d : Fin 16} {ds : List (Fin 16)}

theorem toNat_upperDigits_lt : ∀ d : Fin 16, (upperDigits.get d).toNat < 128 := by decide

theorem toNat_lowerDigits_lt : ∀ d : Fin 16, (lowerDigits.get d).toNat < 128 := by decide

theorem upperMapping_of_spells (h : SpellsDigit c d) :
    u.upperMapping c = [upperDigits.get d] := by
  have hupper : ∀ d : Fin 16, (upperDigits.get d).toUpper = upperDigits.get d ∧
      (lowerDigits.get d).toUpper = upperDigits.get d := by
    decide
  rcases h with rfl | rfl
  · rw [u.upperMapping_ascii _ (toNat_upperDigits_lt d), (hupper d).1]
  · rw [u.upperMapping_ascii _ (toNat_lowerDigits_lt d), (hupper d).2]

theorem uppercased_of_spells (h : List.Forall₂ SpellsDigit s ds) :
    u.uppercased s = ds.map upperDigits.get := by
  induction h with
  | nil => rfl
  | cons hd _ ih =>
    rw [UnicodeData.uppercased, List.flatMap_cons, upperMapping_of_spells hd, List.map_cons]
    exact congrArg _ ih

theorem characterCount_upperDigits : u.characterCount (ds.map upperDigits.get) = ds.length := by
  have hreturn : ∀ d : Fin 16, upperDigits.get d ≠ '\r' := by decide
  rw [u.characterCount_ascii, List.length_map]
  intro c hc
  obtain ⟨d, -, rfl⟩ := List.mem_map.mp hc
  exact ⟨toNat_upperDigits_lt d, hreturn d⟩

/-! ## Scanning digits -/

namespace Scanner

theorem dropWhile_upperDigits :
    (ds.map upperDigits.get).dropWhile isWhitespaceOrNewline = ds.map upperDigits.get := by
  have hblank : ∀ d : Fin 16, isWhitespaceOrNewline (upperDigits.get d) = false := by decide
  cases ds with
  | nil => rfl
  | cons d ds => rw [List.map_cons, List.dropWhile_cons_of_neg (by simp [hblank d])]

theorem skipHexPrefix_upperDigits :
    skipHexPrefix (ds.map upperDigits.get) = ds.map upperDigits.get := by
  have hmark : ∀ d : Fin 16, upperDigits.get d ≠ 'x' ∧ upperDigits.get d ≠ 'X' := by decide
  unfold skipHexPrefix
  split
  · rename_i heq
    obtain ⟨d, -, hd⟩ := List.mem_map.mp (heq ▸ List.mem_cons_of_mem _ (List.mem_cons_self ..))
    exact absurd hd (hmark d).1
  · rename_i heq
    obtain ⟨d, -, hd⟩ := List.mem_map.mp (heq ▸ List.mem_cons_of_mem _ (List.mem_cons_self ..))
    exact absurd hd (hmark d).2
  · rfl

theorem hexDigits_upperDigits : hexDigits (ds.map upperDigits.get) = ds.map Fin.val := by
  have hvalue : ∀ d : Fin 16, hexDigitValue (upperDigits.get d) = some d.val := by decide
  induction ds with
  | nil => rfl
  | cons d ds ih => rw [List.map_cons, hexDigits, hvalue, ih, List.map_cons]

/-- Up to eight digits are read without loss. -/
theorem scanHexInt32_upperDigits (hne : ds ≠ []) (hlen : ds.length ≤ 8) :
    ∃ n, scanHexInt32 (ds.map upperDigits.get) = some n ∧
      n.toNat = Numeral.value 16 (ds.map Fin.val) := by
  have hlt : Numeral.value 16 (ds.map Fin.val) < 2 ^ 32 := by
    have hdigits : ∀ d ∈ ds.map Fin.val, d < 16 := by
      intro d hd
      obtain ⟨e, -, rfl⟩ := List.mem_map.mp hd
      exact e.isLt
    calc Numeral.value 16 (ds.map Fin.val)
      _ < 16 ^ (ds.map Fin.val).length := Numeral.value_lt (by decide) hdigits
      _ ≤ 16 ^ 8 := Nat.pow_le_pow_right (by decide) (by simpa using hlen)
      _ = 2 ^ 32 := by decide
  have hle : Numeral.value 16 (ds.map Fin.val) ≤ UInt32.size - 1 := Nat.le_sub_one_of_lt hlt
  rw [scanHexInt32, dropWhile_upperDigits, skipHexPrefix_upperDigits, hexDigits_upperDigits]
  split
  · rename_i hnil
    exact absurd (List.map_eq_nil_iff.mp hnil) hne
  · exact ⟨_, rfl, by rw [Nat.min_eq_left hle]; exact UInt32.toNat_ofNat_of_lt hlt⟩

end Scanner

/-! ## Colours -/

theorem ofRgbValue_eq (n : UInt32) : UIColor.ofRgbValue n =
    ⟨(n.toNat / 65536 % 256 : Nat) / 255, (n.toNat / 256 % 256 : Nat) / 255,
      (n.toNat % 256 : Nat) / 255, 1⟩ := by
  have hred : ((n &&& 0xFF0000) >>> 16).toNat = n.toNat / 65536 % 256 := by
    rw [UInt32.toNat_shiftRight, UInt32.toNat_and]
    exact Numeral.and_shiftRight_eq_byte n.toNat 16
  have hgreen : ((n &&& 0x00FF00) >>> 8).toNat = n.toNat / 256 % 256 := by
    rw [UInt32.toNat_shiftRight, UInt32.toNat_and]
    exact Numeral.and_shiftRight_eq_byte n.toNat 8
  have hblue : (n &&& 0x0000FF).toNat = n.toNat % 256 := by
    rw [UInt32.toNat_and]
    simpa using Numeral.and_shiftRight_eq_byte n.toNat 0
  rw [UIColor.ofRgbValue, hred, hgreen, hblue]

/-- No byte is half of 255. -/
theorem ofRgbValue_ne_gray (n : UInt32) : UIColor.ofRgbValue n ≠ .gray := by
  intro h
  rw [ofRgbValue_eq, UIColor.gray, UIColor.mk.injEq] at h
  have hred : ((n.toNat / 65536 % 256 : Nat) : ℚ) * 2 = 1 * 255 :=
    (div_eq_div_iff (by norm_num) (by norm_num)).mp h.1
  have hnat : n.toNat / 65536 % 256 * 2 = 1 * 255 := by exact_mod_cast hred
  omega

theorem hexStringToUIColor_of_spells {s : String} {rgb : Rgb} (h : Spells s.toList rgb) :
    hexStringToUIColor u s = rgb.color := by
  obtain ⟨r₁, r₂, g₁, g₂, b₁, b₂, hs, ⟨d₁, d₂, h₁, h₂, hred⟩, ⟨d₃, d₄, h₃, h₄, hgreen⟩,
    ⟨d₅, d₆, h₅, h₆, hblue⟩⟩ := h
  have hdigits : List.Forall₂ SpellsDigit s.toList [d₁, d₂, d₃, d₄, d₅, d₆] := by
    rw [hs]
    exact .cons h₁ (.cons h₂ (.cons h₃ (.cons h₄ (.cons h₅ (.cons h₆ .nil)))))
  obtain ⟨n, hscan, hn⟩ : ∃ n,
      Scanner.scanHexInt32 ([d₁, d₂, d₃, d₄, d₅, d₆].map upperDigits.get) = some n ∧
        n.toNat = Numeral.value 16 ([d₁, d₂, d₃, d₄, d₅, d₆].map Fin.val) :=
    Scanner.scanHexInt32_upperDigits (List.cons_ne_nil _ _) (by simp)
  simp only [List.map_cons, List.map_nil, Numeral.value, List.foldl_cons, List.foldl_nil] at hn
  rw [hexStringToUIColor, uppercased_of_spells hdigits, characterCount_upperDigits,
    if_neg (by simp), hscan, Option.getD_some, ofRgbValue_eq, Rgb.color, hred, hgreen, hblue]
  have hr : n.toNat / 65536 % 256 = 16 * d₁ + d₂ := by omega
  have hg : n.toNat / 256 % 256 = 16 * d₃ + d₄ := by omega
  have hb : n.toNat % 256 = 16 * d₅ + d₆ := by omega
  rw [hr, hg, hb]

/-! ## The grammar is met -/

/-- The parser meets its grammar on a string if and only if the string is in the grammar or does not
have six characters once upper-cased. -/
theorem meetsGrammar_iff (u : UnicodeData) (s : String) : MeetsGrammar u s ↔
    (∃ rgb, Spells s.toList rgb) ∨ u.characterCount (u.uppercased s.toList) ≠ 6 := by
  constructor
  · intro h
    by_contra hnot
    obtain ⟨hspells, hcount⟩ := not_or.mp hnot
    have hgray := h.2 (not_exists.mp hspells)
    rw [hexStringToUIColor, if_neg hcount] at hgray
    exact ofRgbValue_ne_gray _ hgray
  · refine fun h => ⟨fun rgb hrgb => hexStringToUIColor_of_spells hrgb, fun hnot => ?_⟩
    exact if_pos (h.resolve_left (not_exists.mpr hnot))

/-- Tables that are right on ASCII and on the ligature U+FB00, whose upper case is two letters. -/
def UnicodeData.excerpt : UnicodeData where
  upperMapping c := if c.toNat = 0xFB00 then ['F', 'F'] else [c.toUpper]
  characterCount := List.length
  upperMapping_ascii c h := if_neg fun hc => by omega
  characterCount_ascii _ _ := rfl

theorem meetsGrammar_iff_orange : MeetsGrammar .excerpt "fF8800" := by
  refine (meetsGrammar_iff .excerpt "fF8800").mpr (.inl ⟨⟨255, 136, 0⟩, ?_⟩)
  refine ⟨'f', 'F', '8', '8', '0', '0', rfl, ⟨15, 15, ?_⟩, ⟨8, 8, ?_⟩, ⟨0, 0, ?_⟩⟩
  · exact ⟨.inr rfl, .inl rfl, rfl⟩
  · exact ⟨.inl rfl, .inl rfl, rfl⟩
  · exact ⟨.inl rfl, .inl rfl, rfl⟩

/-- A string outside the grammar that is given a colour of bytes. -/
theorem not_meetsGrammar {s : String} {n : UInt32} (hnot : ∀ rgb, ¬ Spells s.toList rgb)
    (h : hexStringToUIColor u s = .ofRgbValue n) : ¬ MeetsGrammar u s :=
  fun hmeets => ofRgbValue_ne_gray n (h.symm.trans (hmeets.2 hnot))

/-- Six letters that are no digits give black, and three ligatures white. -/
theorem accepted_outside_grammar :
    (¬ MeetsGrammar .excerpt "GGGGGG" ∧ (∀ rgb, ¬ Spells "GGGGGG".toList rgb) ∧
      hexStringToUIColor .excerpt "GGGGGG" = ⟨0, 0, 0, 1⟩) ∧
    (¬ MeetsGrammar .excerpt "\uFB00\uFB00\uFB00" ∧
      (∀ rgb, ¬ Spells "\uFB00\uFB00\uFB00".toList rgb) ∧
      hexStringToUIColor .excerpt "\uFB00\uFB00\uFB00" = ⟨1, 1, 1, 1⟩) := by
  have hdigit : ∀ d : Fin 16, 'G' ≠ upperDigits.get d ∧ 'G' ≠ lowerDigits.get d := by decide
  have hletters : ∀ rgb, ¬ Spells "GGGGGG".toList rgb := by
    rintro rgb ⟨_, _, _, _, _, _, hs, ⟨d, _, hd, -⟩, -⟩
    cases hs
    exact hd.elim (hdigit d).1 (hdigit d).2
  have hligatures : ∀ rgb, ¬ Spells "\uFB00\uFB00\uFB00".toList rgb := by
    rintro rgb ⟨_, _, _, _, _, _, hs, -⟩
    cases hs
  have hnone : Scanner.scanHexInt32 (UnicodeData.excerpt.uppercased "GGGGGG".toList) = none := by
    decide
  have hsome : Scanner.scanHexInt32
      (UnicodeData.excerpt.uppercased "\uFB00\uFB00\uFB00".toList) = some 0xFFFFFF := by
    decide
  have hblack : hexStringToUIColor .excerpt "GGGGGG" = .ofRgbValue 0 := by
    rw [hexStringToUIColor, if_neg (by decide), hnone, Option.getD_none]
  have hwhite : hexStringToUIColor .excerpt "\uFB00\uFB00\uFB00" = .ofRgbValue 0xFFFFFF := by
    rw [hexStringToUIColor, if_neg (by decide), hsome, Option.getD_some]
  refine ⟨⟨not_meetsGrammar hletters hblack, hletters, ?_⟩,
    ⟨not_meetsGrammar hligatures hwhite, hligatures, ?_⟩⟩
  · rw [hblack, ofRgbValue_eq]
    simp
  · have hvalue : (0xFFFFFF : UInt32).toNat = 0xFFFFFF := rfl
    rw [hwhite, ofRgbValue_eq, hvalue]
    norm_num

end RLFinder
