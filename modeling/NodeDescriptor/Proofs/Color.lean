import Mathlib.Data.String.Basic
import NodeDescriptor.Proofs.AllOrNothing
import NodeDescriptor.Proofs.RoundTrip.Values

/-!
# The two spellings of colors

Which texts and which lists spell a color, and that both spellings say the same. A text spells a
color exactly if it is `#` and eight hexadecimal digits, and it is written back with its digits in
upper case. What else begins with `#` is refused for its length in bytes or for a character that is
no digit: a text with a character of several bytes may be nine bytes long and still is no color.
-/

set_option autoImplicit false

namespace NodeDescriptor

/-! ## Digits -/

namespace Hex

/-- A hexadecimal digit of either case. -/
def IsDigit (c : Char) : Prop :=
  ('0' ≤ c ∧ c ≤ '9') ∨ ('a' ≤ c ∧ c ≤ 'f') ∨ ('A' ≤ c ∧ c ≤ 'F')

instance : DecidablePred IsDigit := fun c =>
  inferInstanceAs (Decidable (('0' ≤ c ∧ c ≤ '9') ∨ ('a' ≤ c ∧ c ≤ 'f') ∨ ('A' ≤ c ∧ c ≤ 'F')))

variable {c : Char} {value : Nat}

private theorem value?_isSome_iff : (value? c).isSome = true ↔ IsDigit c := by
  unfold value? IsDigit
  split
  · simp_all
  · split
    · simp_all
    · split <;> simp_all

private theorem IsDigit.ascii (digit : IsDigit c) : c.toNat < 128 := by
  rcases digit with ⟨-, upper⟩ | ⟨-, upper⟩ | ⟨-, upper⟩
  · exact Nat.lt_of_le_of_lt upper (by decide)
  · exact Nat.lt_of_le_of_lt upper (by decide)
  · exact Nat.lt_of_le_of_lt upper (by decide)

private theorem value?_ofNat : ∀ code < 128, ∀ value, value? (Char.ofNat code) = some value →
    value < 16 ∧ upperDigit value = (Char.ofNat code).toUpper := by decide

private theorem upperDigit_of_value? (read : value? c = some value) :
    value < 16 ∧ upperDigit value = c.toUpper := by
  have digit : IsDigit c := value?_isSome_iff.mp (Option.isSome_of_eq_some read)
  -- Digits are ASCII characters, and of those there are few enough to look at each.
  have known := value?_ofNat c.toNat digit.ascii value
  rw [Char.ofNat_toNat] at known
  exact known read

private theorem ofByte_byte {high low : Nat} (highSmall : high < 16) (lowSmall : low < 16) :
    ofByte (byte high low) = [upperDigit high, upperDigit low] := by
  have size : high * 16 + low < UInt8.size := by
    have : UInt8.size = 256 := rfl
    omega
  have upper : (high * 16 + low) / 16 = high := by omega
  have lower : (high * 16 + low) % 16 = low := by omega
  rw [ofByte, byte, UInt8.toNat_ofNat_of_lt' size, upper, lower]

private theorem utf8Len_digits {digits : List Char}
    (hexadecimal : ∀ digit ∈ digits, IsDigit digit) :
    String.utf8Len digits = digits.length := by
  induction digits with
  | nil => rfl
  | cons digit rest ih =>
      obtain ⟨head, tail⟩ := List.forall_mem_cons.mp hexadecimal
      have single : digit.utf8Size = 1 :=
        Char.utf8Size_eq_one_iff.mpr (Nat.le_of_lt_succ head.ascii)
      rw [String.utf8Len_cons, ih tail, single, List.length_cons]

end Hex

private theorem Json.asNat?_eq_some_iff {value : Json} {natural : Nat} :
    value.asNat? = some natural ↔ value = .ofNat natural := by
  cases value with
  | number value =>
      cases value with
      | integer value => simp [asNat?, asInt?, ofNat, Int.mem_toNat?]
      | float value => simp [asNat?, asInt?, ofNat]
  | _ => simp [asNat?, asInt?, ofNat]

namespace Color

/-! ## Texts -/

/-- `#` and eight hexadecimal digits. -/
def IsHex (text : String) : Prop :=
  ∃ digits : List Char, text = String.ofList ('#' :: digits) ∧ digits.length = 8 ∧
    ∀ digit ∈ digits, Hex.IsDigit digit

variable {text : String} {digits : List Char} {color : Color}

private theorem ofDigits?_isSome_iff {values : List Nat} :
    (ofDigits? values).isSome = true ↔ values.length = 8 := by
  constructor
  · intro made
    unfold ofDigits? at made
    split at made
    · rfl
    · cases made
  · intro eight
    match values, eight with
    | [_, _, _, _, _, _, _, _], _ => rfl

private theorem hex_of_ofDigits? {values : List Nat} (small : ∀ value ∈ values, value < 16)
    (made : ofDigits? values = some color) :
    color.hex = String.ofList ('#' :: values.map Hex.upperDigit) := by
  unfold ofDigits? at made
  split at made
  · cases made
    simp only [List.forall_mem_cons, List.not_mem_nil, false_implies, implies_true] at small
    simp [hex, Hex.ofByte_byte, small]
  · cases made

private theorem ofHex_ofList_eq_ok_iff :
    ofHex (String.ofList ('#' :: digits)) = .ok color ↔
      ∃ values, digits.mapM Hex.value? = some values ∧ ofDigits? values = some color := by
  rw [← Option.bind_eq_some_iff]
  simp only [ofHex, String.toList_ofList]
  cases (digits.mapM Hex.value?).bind ofDigits? <;> simp

private theorem exists_or_notEightDigits (digits : List Char) :
    (∃ color, ofHex (String.ofList ('#' :: digits)) = .ok color) ∨
      ofHex (String.ofList ('#' :: digits)) =
        .error (.notEightDigits (String.ofList ('#' :: digits))) := by
  simp only [ofHex, String.toList_ofList]
  cases (digits.mapM Hex.value?).bind ofDigits? with
  | some color => exact .inl ⟨color, rfl⟩
  | none => exact .inr rfl

private theorem exists_ofHex_ofList_iff :
    (∃ color, ofHex (String.ofList ('#' :: digits)) = .ok color) ↔
      digits.length = 8 ∧ ∀ digit ∈ digits, Hex.IsDigit digit := by
  constructor
  · rintro ⟨color, read⟩
    obtain ⟨values, digitsRead, made⟩ := ofHex_ofList_eq_ok_iff.mp read
    have each := isSome_mapM_iff.mp (Option.isSome_of_eq_some digitsRead)
    have length := (mapM_eq_some_iff.mp digitsRead).length_eq
    have eight := ofDigits?_isSome_iff.mp (Option.isSome_of_eq_some made)
    exact ⟨length.trans eight, fun digit listed => Hex.value?_isSome_iff.mp (each digit listed)⟩
  · rintro ⟨eight, hexadecimal⟩
    obtain ⟨values, digitsRead⟩ := Option.isSome_iff_exists.mp (isSome_mapM_iff.mpr
      fun digit listed => Hex.value?_isSome_iff.mpr (hexadecimal digit listed))
    have length := (mapM_eq_some_iff.mp digitsRead).length_eq
    obtain ⟨color, made⟩ := Option.isSome_iff_exists.mp
      (ofDigits?_isSome_iff.mpr (length.symm.trans eight))
    exact ⟨color, ofHex_ofList_eq_ok_iff.mpr ⟨values, digitsRead, made⟩⟩

private theorem hex_of_ofHex (read : ofHex (String.ofList ('#' :: digits)) = .ok color) :
    color.hex = String.ofList ('#' :: digits.map Char.toUpper) := by
  obtain ⟨values, digitsRead, made⟩ := ofHex_ofList_eq_ok_iff.mp read
  have each := mapM_eq_some_iff.mp digitsRead
  have upper : values.map Hex.upperDigit = digits.map Char.toUpper :=
    map_eq_map_of_forall₂ each fun _ _ read => (Hex.upperDigit_of_value? read).2
  have bounded : List.Forall₂ (fun value digit => value < 16 ∧ Hex.value? digit = some value)
      values digits :=
    List.Forall₂.flip (each.imp fun _ _ read => ⟨(Hex.upperDigit_of_value? read).1, read⟩)
  rw [hex_of_ofDigits? ((List.forall₂_and_left _ _).mp bounded).1 made, upper]

private theorem eq_ofList_or_noHash (text : String) :
    (∃ digits, text = String.ofList ('#' :: digits)) ∨ ofHex text = .error (.noHash text) := by
  unfold ofHex
  split
  · rename_i digits spelling
    exact .inl ⟨digits, by rw [← spelling, String.ofList_toList]⟩
  · exact .inr rfl

private theorem exists_ofHex_iff : (∃ color, ofHex text = .ok color) ↔ IsHex text := by
  constructor
  · rintro ⟨color, read⟩
    rcases eq_ofList_or_noHash text with ⟨digits, rfl⟩ | refused
    · exact ⟨digits, rfl, exists_ofHex_ofList_iff.mp ⟨color, read⟩⟩
    · cases refused.symm.trans read
  · rintro ⟨digits, rfl, hexadecimal⟩
    exact exists_ofHex_ofList_iff.mpr hexadecimal

/-! ## Refused texts -/

private theorem ofHex_eq_noHash_iff :
    ofHex text = .error (.noHash text) ↔ ∀ digits, text ≠ String.ofList ('#' :: digits) := by
  constructor
  · rintro refused digits rfl
    rcases exists_or_notEightDigits digits with ⟨color, read⟩ | wrong
    · cases refused.symm.trans read
    · cases refused.symm.trans wrong
  · intro noHash
    rcases eq_ofList_or_noHash text with ⟨digits, same⟩ | refused
    · exact absurd same (noHash digits)
    · exact refused

private theorem nine_bytes_iff (hexadecimal : ∀ digit ∈ digits, Hex.IsDigit digit) :
    (String.ofList ('#' :: digits)).utf8ByteSize = 9 ↔ digits.length = 8 := by
  have hash : '#'.utf8Size = 1 := by decide
  rw [String.utf8ByteSize_ofList, String.utf8Len_cons, Hex.utf8Len_digits hexadecimal, hash]
  omega

private theorem ofHex_eq_notEightDigits_iff :
    ofHex text = .error (.notEightDigits text) ↔
      ∃ digits, text = String.ofList ('#' :: digits) ∧
        (text.utf8ByteSize ≠ 9 ∨ ∃ digit ∈ digits, ¬Hex.IsDigit digit) := by
  constructor
  · intro refused
    rcases eq_ofList_or_noHash text with ⟨digits, rfl⟩ | other
    · refine ⟨digits, rfl, ?_⟩
      by_contra right
      push Not at right
      obtain ⟨nine, hexadecimal⟩ := right
      have eight := (nine_bytes_iff hexadecimal).mp nine
      obtain ⟨color, read⟩ := exists_ofHex_ofList_iff.mpr ⟨eight, hexadecimal⟩
      cases refused.symm.trans read
    · cases refused.symm.trans other
  · rintro ⟨digits, rfl, wrong⟩
    rcases exists_or_notEightDigits digits with read | refused
    · obtain ⟨eight, hexadecimal⟩ := exists_ofHex_ofList_iff.mp read
      rcases wrong with length | ⟨digit, listed, other⟩
      · exact absurd ((nine_bytes_iff hexadecimal).mpr eight) length
      · exact absurd (hexadecimal digit listed) other
    · exact refused

/-! ## Lists -/

/-- An integer that a channel can hold. -/
def IsLevel (value : Json) : Prop :=
  ∃ level : Int, 0 ≤ level ∧ level ≤ 255 ∧ value = .number (.integer level)

/-- The levels of the channels, from red to alpha. -/
def levels (color : Color) : List Json :=
  [color.red, color.green, color.blue, color.alpha].map fun channel => .ofNat channel.toNat

private theorem channel_eq_ok_iff {item : Json} {level : UInt8} :
    channel item = .ok level ↔ item = .ofNat level.toNat := by
  constructor
  · intro read
    unfold channel at read
    split at read
    · rename_i value found
      cases read
      obtain ⟨natural, small⟩ := Option.filter_eq_some_iff.mp found
      have fits : value < UInt8.size := of_decide_eq_true small
      rw [Json.asNat?_eq_some_iff.mp natural, UInt8.toNat_ofNat_of_lt' fits]
    · cases read
  · rintro rfl
    have natural : (Json.ofNat level.toNat).asNat? = some level.toNat :=
      Json.asNat?_eq_some_iff.mpr rfl
    have small : level.toNat < 256 := level.toNat_lt
    rw [channel, natural]
    simp [Option.filter, small]

private theorem isLevel_iff {item : Json} : IsLevel item ↔ ∃ level, channel item = .ok level := by
  simp only [channel_eq_ok_iff]
  constructor
  · rintro ⟨level, positive, small, rfl⟩
    have fits : level.toNat < UInt8.size := by
      have : UInt8.size = 256 := rfl
      omega
    refine ⟨UInt8.ofNat level.toNat, ?_⟩
    rw [UInt8.toNat_ofNat_of_lt' fits, Json.ofNat, Int.toNat_of_nonneg positive]
  · rintro ⟨level, rfl⟩
    have small : level.toNat < 256 := level.toNat_lt
    exact ⟨level.toNat, by omega, by omega, rfl⟩

private theorem ofComponents_eq_ok_iff {items : List Json} :
    ofComponents (.array items) = .ok color ↔ items = color.levels := by
  constructor
  · intro read
    unfold ofComponents at read
    split at read
    · rename_i shape
      cases shape
      obtain ⟨red, redRead, read⟩ := bind_eq_ok_iff.mp read
      obtain ⟨green, greenRead, read⟩ := bind_eq_ok_iff.mp read
      obtain ⟨blue, blueRead, read⟩ := bind_eq_ok_iff.mp read
      obtain ⟨alpha, alphaRead, read⟩ := bind_eq_ok_iff.mp read
      cases read
      rw [channel_eq_ok_iff.mp redRead, channel_eq_ok_iff.mp greenRead,
        channel_eq_ok_iff.mp blueRead, channel_eq_ok_iff.mp alphaRead]
      rfl
    · cases read
  · rintro rfl
    have each (level : UInt8) : channel (.ofNat level.toNat) = .ok level :=
      channel_eq_ok_iff.mpr rfl
    simp [levels, ofComponents, each, bind, Except.bind, pure, Except.pure]

private theorem exists_ofComponents_iff {items : List Json} :
    (∃ color, ofComponents (.array items) = .ok color) ↔
      items.length = 4 ∧ ∀ item ∈ items, IsLevel item := by
  simp only [ofComponents_eq_ok_iff]
  constructor
  · rintro ⟨color, rfl⟩
    refine ⟨rfl, ?_⟩
    rw [levels, List.forall_mem_map]
    exact fun level _ => isLevel_iff.mpr ⟨level, channel_eq_ok_iff.mpr rfl⟩
  · rintro ⟨four, each⟩
    match items, four with
    | [first, second, third, fourth], _ =>
      simp only [List.forall_mem_cons, isLevel_iff, channel_eq_ok_iff] at each
      obtain ⟨⟨red, rfl⟩, ⟨green, rfl⟩, ⟨blue, rfl⟩, ⟨alpha, rfl⟩, -⟩ := each
      exact ⟨⟨red, green, blue, alpha⟩, rfl⟩

/-! ## Both spellings -/

/-- A text spells a color exactly if it is `#` and eight hexadecimal digits, and the color is
written as this text with its digits in upper case. Any other text is refused: for the missing `#`,
or because behind it there are not eight bytes that are all digits. A list spells a color exactly if
it has four items that are integers from 0 to 255. Every color is read back from both of its
spellings. -/
theorem spellings_agree :
    (∀ text, (∃ color, ofHex text = .ok color) ↔ IsHex text) ∧
      (∀ digits color, ofHex (String.ofList ('#' :: digits)) = .ok color →
        color.hex = String.ofList ('#' :: digits.map Char.toUpper)) ∧
      (∀ text, ofHex text = .error (.noHash text) ↔
        ∀ digits, text ≠ String.ofList ('#' :: digits)) ∧
      (∀ text, ofHex text = .error (.notEightDigits text) ↔
        ∃ digits, text = String.ofList ('#' :: digits) ∧
          (text.utf8ByteSize ≠ 9 ∨ ∃ digit ∈ digits, ¬Hex.IsDigit digit)) ∧
      (∀ items, (∃ color, ofComponents (.array items) = .ok color) ↔
        items.length = 4 ∧ ∀ item ∈ items, IsLevel item) ∧
      ∀ color, ofJson (.string color.hex) = .ok color ∧
        ofJson (.array color.levels) = .ok color := by
  refine ⟨fun _ => exists_ofHex_iff, fun _ _ => hex_of_ofHex, fun _ => ofHex_eq_noHash_iff,
    fun _ => ofHex_eq_notEightDigits_iff, fun _ => exists_ofComponents_iff, fun color => ?_⟩
  exact ⟨ofHex_hex color, ofComponents_eq_ok_iff.mpr rfl⟩

/-- Small digits are written in capitals; nine bytes with an accent among them are no color. -/
theorem smallDigits_agree :
    ofHex (String.ofList ('#' :: "ff3e3f40".toList)) = .ok ⟨0x40, 0x3F, 0x3E, 0xFF⟩ ∧
      hex ⟨0x40, 0x3F, 0x3E, 0xFF⟩ = "#FF3E3F40" ∧
      "#123456é".utf8ByteSize = 9 ∧
      ofHex "#123456é" = .error (.notEightDigits "#123456é") := by
  obtain ⟨-, upper, -, refused, -⟩ := spellings_agree
  have read : ofHex (String.ofList ('#' :: "ff3e3f40".toList)) = .ok ⟨0x40, 0x3F, 0x3E, 0xFF⟩ := by
    decide
  refine ⟨read, ?_, by decide, ?_⟩
  · rw [upper _ _ read]
    decide
  · exact (refused _).mpr ⟨"123456é".toList, by decide, .inr ⟨'é', by decide, by decide⟩⟩

end Color

end NodeDescriptor
