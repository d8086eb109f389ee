import Mathlib.Algebra.GroupWithZero.Nat
import Mathlib.Data.List.Basic
import ScriptRunner.Duration.Parser
import ScriptRunner.Text.Utf8

/-!
# The language of durations

A text is a duration if it consists, but for blanks at its ends, of a run of digits, any blanks, and the name of a unit
in either case (`Duration.Spelled`), and what is meant fits in 64 bits (`Duration.Amounts`); the digits may be as many
as one likes.  Reading finds the run by counting characters from the front, which is right since a digit takes one byte
(`Text.take_encode_of_digits`), and compares the name in lower case, which is right since no character that is not
ASCII has one of the letters of these names for a partner (`Duration.Unit.ofName?_lower`).
-/

namespace ScriptRunner

/-! ### Digits take one byte each -/

namespace Text

theorem length_encode_of_digits {digits : List Char} (h : ∀ c ∈ digits, c.isDigit = true) :
    (encode (String.ofList digits)).length = digits.length := by
  rw [length_encode]
  induction digits with
  | nil => rfl
  | cons c digits ih =>
    rw [List.forall_mem_cons] at h
    have hbyte : c.utf8Size = 1 := by
      have hle := h.1
      simp only [Char.isDigit, Bool.and_eq_true, decide_eq_true_eq] at hle
      exact Char.utf8Size_eq_one_iff.2 (UInt32.le_trans hle.2 (by decide))
    rw [String.ofList_cons, String.utf8ByteSize_append, String.utf8ByteSize_singleton, hbyte, ih h.2,
      List.length_cons, Nat.add_comm]

/-- As many bytes as there are digits at the front of a text are these digits, and the bytes after them are the rest. -/
theorem take_encode_of_digits {digits : List Char} (h : ∀ c ∈ digits, c.isDigit = true) (rest : List Char) :
    (encode (String.ofList (digits ++ rest))).take digits.length = encode (String.ofList digits) ∧
      (encode (String.ofList (digits ++ rest))).drop digits.length = encode (String.ofList rest) := by
  rw [String.ofList_append, encode_append]
  exact ⟨List.take_left' (length_encode_of_digits h), List.drop_left' (length_encode_of_digits h)⟩

end Text

namespace Duration

/-- But for blanks at its ends, a text is a run of digits, any blanks, and a name. -/
structure Spelled (text digits name : List Char) : Prop where
  trim_eq : ∃ blanks, Text.trim text = digits ++ blanks ++ name ∧ ∀ c ∈ blanks, Text.isBlank c = true
  digits_ne_nil : digits ≠ []
  isDigit : ∀ c ∈ digits, c.isDigit = true

/-- So many of a unit are these whole seconds and the nanoseconds beyond them.  The unit is given by its name in lower
case, and the seconds of minutes and hours fit in 64 bits. -/
inductive Amounts (n : Nat) : List Char → Nat → Nat → Prop where
  | millis : Amounts n ['m', 's'] (n / 1000) (n % 1000 * 1000000)
  | seconds : Amounts n ['s'] n 0
  | minutes (h : n * 60 < 2 ^ 64) : Amounts n ['m'] (n * 60) 0
  | hours (h : n * 3600 < 2 ^ 64) : Amounts n ['h'] (n * 3600) 0

variable {text digits name : List Char} {unit : Unit} {d : Duration} {n : Nat}

/-! ### Names of units -/

/-- The letters of the names of units. -/
theorem Unit.letter_of_ofName? (h : ofName? name = some unit) : ∀ c ∈ name, c = 'm' ∨ c = 's' ∨ c = 'h' := by
  unfold ofName? at h
  split at h
  iterate 4 simp
  exact nomatch h

theorem Unit.isPlain_of_ofName? (h : ofName? name = some unit) : ∀ c ∈ name, Text.IsPlain c := by
  intro c hc
  rcases letter_of_ofName? h c hc with rfl | rfl | rfl <;> decide

/-- Names of units are compared up to ASCII case. -/
theorem Unit.ofName?_lower (name : List Char) : ofName? (Text.lower name) = ofName? (name.map Char.toLower) := by
  refine Option.ext fun unit => ⟨fun h => ?_, fun h => ?_⟩
  · rwa [(Text.lower_eq_iff (isPlain_of_ofName? h)).1 rfl]
  · rwa [(Text.lower_eq_iff (isPlain_of_ofName? h)).2 rfl]

theorem Unit.times?_seconds_eq_some_iff {each : Nat} :
    (seconds each).times? n = some d ↔ n * each < 2 ^ 64 ∧ d.seconds = n * each ∧ d.subNanos = 0 := by
  have hparts : ofSeconds (n * each) = d ↔ d.seconds = n * each ∧ d.subNanos = 0 := by
    rw [eq_comm, eq_iff_parts, seconds_ofSeconds, subNanos_ofSeconds]
  rw [← hparts, times?]
  exact Option.ite_none_right_eq_some.trans (and_congr_right fun _ => Option.some_inj)

theorem Unit.times?_millis_eq_some_iff :
    millis.times? n = some d ↔ d.seconds = n / 1000 ∧ d.subNanos = n % 1000 * 1000000 := by
  rw [times?, Option.some_inj, eq_comm, eq_iff_parts, seconds_ofMillis, subNanos_ofMillis, perMilli]

/-- What is read of a number and the name of a unit is what so many of the unit are. -/
theorem amounts_iff (hn : n < 2 ^ 64) :
    (∃ unit, Unit.ofName? name = some unit ∧ unit.times? n = some d) ↔ Amounts n name d.seconds d.subNanos := by
  constructor
  · rintro ⟨unit, hunit, htimes⟩
    unfold Unit.ofName? at hunit
    split at hunit
    · obtain rfl := Option.some.inj hunit
      obtain ⟨hs, hk⟩ := Unit.times?_millis_eq_some_iff.1 htimes
      exact hs ▸ hk ▸ .millis
    · obtain rfl := Option.some.inj hunit
      obtain ⟨-, hs, hk⟩ := Unit.times?_seconds_eq_some_iff.1 htimes
      rw [hs, hk, Nat.mul_one]
      exact .seconds
    · obtain rfl := Option.some.inj hunit
      obtain ⟨h, hs, hk⟩ := Unit.times?_seconds_eq_some_iff.1 htimes
      exact hs ▸ hk ▸ .minutes h
    · obtain rfl := Option.some.inj hunit
      obtain ⟨h, hs, hk⟩ := Unit.times?_seconds_eq_some_iff.1 htimes
      exact hs ▸ hk ▸ .hours h
    · exact nomatch hunit
  · intro h
    generalize hs : d.seconds = s, hk : d.subNanos = k at h
    cases h with
    | millis => exact ⟨.millis, rfl, Unit.times?_millis_eq_some_iff.2 ⟨hs, hk⟩⟩
    | seconds => exact ⟨.seconds 1, rfl, Unit.times?_seconds_eq_some_iff.2 (by rw [Nat.mul_one]; exact ⟨hn, hs, hk⟩)⟩
    | minutes h => exact ⟨.seconds 60, rfl, Unit.times?_seconds_eq_some_iff.2 ⟨h, hs, hk⟩⟩
    | hours h => exact ⟨.seconds 3600, rfl, Unit.times?_seconds_eq_some_iff.2 ⟨h, hs, hk⟩⟩

/-! ### Reading a spelled text -/

/-- The names of units are made of letters, in either case. -/
theorem Unit.range_of_ofName? (h : ofName? (name.map Char.toLower) = some unit) :
    ∀ c ∈ name, 0x41 ≤ c.toNat ∧ c.toNat ≤ 0x7a := by
  intro c hc
  have hlow := letter_of_ofName? h _ (List.mem_map_of_mem hc)
  by_cases hcap : 0x41 ≤ c.toNat ∧ c.toNat ≤ 0x5a
  · exact ⟨hcap.1, Nat.le_trans hcap.2 (by decide)⟩
  · rw [Text.toLower_eq_self (by omega)] at hlow
    rcases hlow with rfl | rfl | rfl <;> decide

private theorem isDigit_of_letter {c : Char} (h : 0x41 ≤ c.toNat ∧ c.toNat ≤ 0x7a) : c.isDigit = false := by
  have hnine : ('9' : Char).val.toNat = 57 := rfl
  have hc : c.val.toNat = c.toNat := rfl
  simp only [Char.isDigit, Bool.and_eq_false_iff, decide_eq_false_iff_not, UInt32.le_iff_toNat_le]
  omega

private theorem isBlank_of_letter {c : Char} (h : 0x41 ≤ c.toNat ∧ c.toNat ≤ 0x7a) : Text.isBlank c = false := by
  rw [Bool.eq_false_iff]
  simp only [Text.isBlank, ne_eq, Bool.or_eq_true, Bool.and_eq_true, decide_eq_true_eq]
  omega

private theorem isDigit_of_isBlank {c : Char} (h : Text.isBlank c = true) : c.isDigit = false := by
  have hzero : ('0' : Char).val.toNat = 48 := rfl
  have hnine : ('9' : Char).val.toNat = 57 := rfl
  have hc : c.val.toNat = c.toNat := rfl
  simp only [Text.isBlank, Bool.or_eq_true, Bool.and_eq_true, decide_eq_true_eq] at h
  simp only [Char.isDigit, Bool.and_eq_false_iff, decide_eq_false_iff_not, UInt32.le_iff_toNat_le]
  omega

private theorem span_digits {rest : List Char} (h : ∀ c ∈ digits, c.isDigit = true)
    (hrest : ∀ c ∈ rest, c.isDigit = false) :
    (digits ++ rest).takeWhile Char.isDigit = digits ∧ (digits ++ rest).dropWhile Char.isDigit = rest := by
  rw [List.takeWhile_append_of_pos h, List.dropWhile_append_of_pos h]
  cases rest with
  | nil => exact ⟨List.append_nil _, rfl⟩
  | cons c rest =>
    have hc := hrest c List.mem_cons_self
    rw [List.takeWhile_cons_of_neg (by simp [hc]), List.dropWhile_cons_of_neg (by simp [hc]), List.append_nil]
    exact ⟨rfl, rfl⟩

/-- Reading a spelled text with a number that fits and the name of a unit. -/
theorem parseChars_of_spelled (h : Spelled text digits name) (hn : digitsValue digits < wordLimit)
    (hunit : Unit.ofName? (name.map Char.toLower) = some unit) :
    parseChars text = match unit.times? (digitsValue digits) with
      | none => .error (.tooLarge (String.ofList (Text.trim text)))
      | some d => .ok d := by
  obtain ⟨⟨blanks, htrim, hblanks⟩, hne, hdigits⟩ := h
  have hletters := Unit.range_of_ofName? hunit
  have hname : name ≠ [] := by
    rintro rfl
    exact nomatch hunit
  obtain ⟨htake, hdrop⟩ : (digits ++ (blanks ++ name)).takeWhile Char.isDigit = digits ∧
      (digits ++ (blanks ++ name)).dropWhile Char.isDigit = blanks ++ name := by
    refine span_digits hdigits fun c hc => ?_
    rcases List.mem_append.1 hc with hc | hc
    · exact isDigit_of_isBlank (hblanks c hc)
    · exact isDigit_of_letter (hletters c hc)
  have htrimName : Text.trim (blanks ++ name) = name := by
    have htrimmed : Text.IsTrimmed name := Text.isTrimmed_of_forall fun c hc => isBlank_of_letter (hletters c hc)
    exact Text.trim_eq_iff.2 ⟨htrimmed, blanks, [], by simp, hblanks, nofun⟩
  unfold parseChars
  rw [htrim, List.append_assoc]
  cases htimes : unit.times? (digitsValue digits) <;>
    simp only [htake, hdrop, htrimName, Unit.ofName?_lower, hunit, htimes, List.isEmpty_iff, List.append_eq_nil_iff,
      hne, hname, and_false, if_false, if_neg (Nat.not_le.2 hn)]

/-- A text without blanks at its ends, cut into two, is the first part, blanks, and the trimmed second part. -/
private theorem exists_blanks {rest : List Char} (h : Text.trim text = digits ++ rest) :
    ∃ blanks, Text.trim text = digits ++ blanks ++ Text.trim rest ∧ ∀ c ∈ blanks, Text.isBlank c = true := by
  obtain ⟨before, after, hpads, hbefore, hafter⟩ := Text.pads_trim rest
  rcases List.eq_nil_or_concat after with rfl | ⟨init, c, rfl⟩
  · rw [List.append_nil] at hpads
    exact ⟨before, by rw [h, List.append_assoc, ← hpads], hbefore⟩
  · -- the text would end with a blank
    rw [List.concat_eq_append] at hpads hafter
    have hlast := (Text.isTrimmed_trim text).2 c (by rw [h, hpads]; simp)
    rw [hafter c (by simp)] at hlast
    exact nomatch hlast

/-- A text that is read as a duration is spelled as one. -/
theorem exists_spelled (h : parseChars text = .ok d) : ∃ digits name unit, Spelled text digits name ∧
    digitsValue digits < wordLimit ∧ Unit.ofName? (name.map Char.toLower) = some unit ∧
      unit.times? (digitsValue digits) = some d := by
  have hcut : Text.trim text =
      (Text.trim text).takeWhile Char.isDigit ++ (Text.trim text).dropWhile Char.isDigit :=
    List.takeWhile_append_dropWhile.symm
  have hdigits : ∀ c ∈ (Text.trim text).takeWhile Char.isDigit, c.isDigit = true :=
    fun c hc => List.all_eq_true.1 List.all_takeWhile c hc
  unfold parseChars at h
  simp only [Unit.ofName?_lower] at h
  split at h
  · exact nomatch h
  split at h
  · exact nomatch h
  split at h
  · exact nomatch h
  split at h
  · exact nomatch h
  split at h
  · exact nomatch h
  split at h
  · exact nomatch h
  · rename_i hne hfits _ unit hunit _ d' htimes
    obtain rfl := Except.ok.inj h
    exact ⟨_, _, unit, ⟨exists_blanks hcut, by simpa using hne, hdigits⟩, Nat.not_le.1 hfits, hunit, htimes⟩

/-- A text is read as a duration if and only if it is spelled as one, and what is meant fits. -/
theorem parse_eq_ok_iff {text : String} : parse text = .ok d ↔ ∃ digits name, Spelled text.toList digits name ∧
    Nat.ofDigitChars 10 digits 0 < 2 ^ 64 ∧
      Amounts (Nat.ofDigitChars 10 digits 0) (name.map Char.toLower) d.seconds d.subNanos := by
  constructor
  · intro h
    obtain ⟨digits, name, unit, hspelled, hn, hunit, htimes⟩ := exists_spelled h
    exact ⟨digits, name, hspelled, hn, (amounts_iff hn).1 ⟨unit, hunit, htimes⟩⟩
  · rintro ⟨digits, name, hspelled, hn, hamounts⟩
    obtain ⟨unit, hunit, htimes⟩ := (amounts_iff hn).2 hamounts
    have hparse := parseChars_of_spelled hspelled hn hunit
    rw [show digitsValue digits = Nat.ofDigitChars 10 digits 0 from rfl, htimes] at hparse
    exact hparse

/-- The seconds and the nanoseconds of what is read fit in 64 and in 32 bits. -/
theorem fits_of_parse {text : String} (h : parse text = .ok d) : d.seconds < 2 ^ 64 ∧ d.subNanos < 10 ^ 9 := by
  obtain ⟨digits, name, -, hn, hamounts⟩ := parse_eq_ok_iff.1 h
  refine ⟨?_, d.subNanos_lt⟩
  generalize name.map Char.toLower = unitName, d.seconds = s, d.subNanos = k at hamounts
  cases hamounts with
  | millis => exact Nat.lt_of_le_of_lt (Nat.div_le_self _ _) hn
  | seconds => exact hn
  | minutes h | hours h => exact h

/-! ### Written durations -/

/-- A number with the name of a unit behind it is a duration, unless there are too many seconds. -/
theorem parse_toString_append (hn : n < 2 ^ 64) {name : String}
    (hunit : Unit.ofName? (name.toList.map Char.toLower) = some unit) :
    parse (toString n ++ name) = match unit.times? n with
      | none => .error (.tooLarge (toString n ++ name))
      | some d => .ok d := by
  have hdigits : ∀ c ∈ Nat.toDigits 10 n, c.isDigit = true :=
    fun c hc => Nat.isDigit_of_mem_toDigits (by decide) (by decide) hc
  have hchars : (toString n ++ name).toList = Nat.toDigits 10 n ++ name.toList := by simp
  have htrim : Text.trim (toString n ++ name).toList = Nat.toDigits 10 n ++ name.toList := by
    rw [hchars]
    refine (Text.isTrimmed_of_forall fun c hc => ?_).trim_eq
    rcases List.mem_append.1 hc with hc | hc
    · exact Bool.eq_false_iff.2 fun hblank => Bool.eq_false_iff.1 (isDigit_of_isBlank hblank) (hdigits c hc)
    · exact isBlank_of_letter (Unit.range_of_ofName? hunit c hc)
  have hspelled : Spelled (toString n ++ name).toList (Nat.toDigits 10 n) name.toList :=
    ⟨⟨[], by rw [htrim, List.append_nil], nofun⟩, Nat.toDigits_ne_nil, hdigits⟩
  have hvalue : digitsValue (Nat.toDigits 10 n) = n := Nat.ofDigitChars_toDigits (by decide) (by decide)
  have hparse := parseChars_of_spelled hspelled (by rw [hvalue]; exact hn) hunit
  rw [hvalue, htrim, ← hchars, String.ofList_toList] at hparse
  exact hparse

theorem parse_toString_seconds (hn : n < 2 ^ 64) {name : String} {each : Nat}
    (hunit : Unit.ofName? (name.toList.map Char.toLower) = some (.seconds each)) :
    parse (toString n ++ name) = if n * each < 2 ^ 64 then .ok (ofSeconds (n * each))
      else .error (.tooLarge (toString n ++ name)) := by
  have htimes : (Unit.seconds each).times? n = if n * each < 2 ^ 64 then some (ofSeconds (n * each)) else none := rfl
  rw [parse_toString_append hn hunit, htimes]
  by_cases h : n * each < 2 ^ 64
  · rw [if_pos h, if_pos h]
  · rw [if_neg h, if_neg h]

/-- Reading accepts the language of durations and gives exactly what is meant: it fits in the words of a duration, the
run of digits is cut off between two characters, and what is written of any number that fits and any unit is read back,
unless there are too many seconds. -/
theorem parse_exact (text : String) :
    (∀ d, parse text = .ok d ↔ ∃ digits name, Spelled text.toList digits name ∧ Nat.ofDigitChars 10 digits 0 < 2 ^ 64 ∧
        Amounts (Nat.ofDigitChars 10 digits 0) (name.map Char.toLower) d.seconds d.subNanos) ∧
      (∀ d, parse text = .ok d → d.seconds < 2 ^ 64 ∧ d.subNanos < 10 ^ 9) ∧
      (∀ digits rest, Text.trim text.toList = digits ++ rest → (∀ c ∈ digits, c.isDigit = true) →
        (Text.encode (Text.trimmed text)).take digits.length = Text.encode (String.ofList digits) ∧
          (Text.encode (Text.trimmed text)).drop digits.length = Text.encode (String.ofList rest)) ∧
      ∀ n < 2 ^ 64, parse (toString n ++ "ms") = .ok (ofMillis n) ∧ parse (toString n ++ "s") = .ok (ofSeconds n) ∧
        parse (toString n ++ "m") = (if n * 60 < 2 ^ 64 then .ok (ofSeconds (n * 60))
          else .error (.tooLarge (toString n ++ "m"))) ∧
        parse (toString n ++ "h") = (if n * 3600 < 2 ^ 64 then .ok (ofSeconds (n * 3600))
          else .error (.tooLarge (toString n ++ "h"))) := by
  refine ⟨fun _ => parse_eq_ok_iff, fun _ => fits_of_parse, fun digits rest htrim hdigits => ?_,
    fun n hn => ⟨?_, ?_, ?_, ?_⟩⟩
  · rw [Text.trimmed, htrim]
    exact Text.take_encode_of_digits hdigits rest
  · have hunit : Unit.ofName? ("ms".toList.map Char.toLower) = some .millis := by decide +kernel
    exact parse_toString_append hn hunit
  · have hunit : Unit.ofName? ("s".toList.map Char.toLower) = some (.seconds 1) := by decide +kernel
    rw [parse_toString_seconds hn hunit, Nat.mul_one, if_pos hn]
  · exact parse_toString_seconds hn (by decide +kernel)
  · exact parse_toString_seconds hn (by decide +kernel)

/-- Leading zeros and blanks that are not ASCII; the largest number of minutes, and the first that is too large. -/
theorem parse_exact_limit :
    parse "\u2003007\u00a0M\n" = .ok (ofSeconds 420) ∧ 307445734561825861 < 2 ^ 64 ∧
      parse (toString 307445734561825860 ++ "m") = .ok (ofSeconds 18446744073709551600) ∧
      parse (toString 307445734561825861 ++ "m") = .error (.tooLarge (toString 307445734561825861 ++ "m")) := by
  have hspelled : Spelled "\u2003007\u00a0M\n".toList ['0', '0', '7'] ['M'] :=
    ⟨⟨['\u00a0'], by decide +kernel, List.all_eq_true.1 (by decide)⟩, nofun, List.all_eq_true.1 (by decide)⟩
  refine ⟨?_, by decide, ?_, ?_⟩
  · exact ((parse_exact _).1 _).2 ⟨_, _, hspelled, by decide, .minutes (by decide)⟩
  · exact ((parse_exact "").2.2.2 307445734561825860 (by decide)).2.2.1
  · exact ((parse_exact "").2.2.2 307445734561825861 (by decide)).2.2.1

end Duration

end ScriptRunner
