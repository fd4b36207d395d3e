/-
How JSON is written. Every token has its written forms: a mark or a name one, a number those of the
grammar of numbers, a string one for each way to write its characters: plainly, with a letter escape
or with one or two four-digit escapes. Where a half of a surrogate pair is left alone, a string is
written that has no text. A value is written as its tokens in order, with any space before each of
them and after the last. Main statement: a text is read as a value exactly if the value is written
so.

The scanner reads a string into elements and joins the halves of pairs afterwards. What stands
between two quotes is written as one list of elements only, so the text that is joined from them is
the one that is written. Outside of strings it takes the longest run of word characters as one
token, which is right because no two words stand next to each other among the tokens of a value.
-/
import Mathlib.Tactic.SplitIfs
import Parley.Proofs.Json.Grammar

namespace Parley.Json

namespace Token

/-! ## Runs of characters -/

section

variable {p : Char → Bool} {run rest : List Char} (hrun : ∀ c ∈ run, p c = true)
  (hrest : ∀ c ∈ rest.head?, p c = false)
include hrun hrest

theorem takeWhile_run : (run ++ rest).takeWhile p = run := by
  rw [List.takeWhile_append_of_pos hrun]
  cases rest with
  | nil => rw [List.takeWhile_nil, List.append_nil]
  | cons c rest => rw [List.takeWhile_cons_of_neg (by simp [hrest c rfl]), List.append_nil]

theorem dropWhile_run : (run ++ rest).dropWhile p = rest := by
  rw [List.dropWhile_append_of_pos hrun]
  cases rest with
  | nil => rfl
  | cons c rest => rw [List.dropWhile_cons_of_neg (by simp [hrest c rfl])]

end

/-! ## Numbers -/

/-- One digit or more. -/
def IsDigits (s : List Char) : Prop :=
  s ≠ [] ∧ ∀ c ∈ s, c.isDigit = true

/-- The whole part of a number: no zero stands before another digit. -/
inductive IsWhole : List Char → Prop
  | zero : IsWhole ['0']
  | positive {d : Char} {ds : List Char} (hd : d.isDigit = true) (hne : d ≠ '0')
      (hds : ∀ c ∈ ds, c.isDigit = true) : IsWhole (d :: ds)

/-- The fraction of a number. -/
inductive IsFraction : List Char → Prop
  | absent : IsFraction []
  | digits {ds : List Char} (hds : IsDigits ds) : IsFraction ('.' :: ds)

/-- The exponent of a number. -/
inductive IsExponent : List Char → Prop
  | absent : IsExponent []
  | unsigned {e : Char} {ds : List Char} (he : e = 'e' ∨ e = 'E') (hds : IsDigits ds) :
      IsExponent (e :: ds)
  | signed {e sign : Char} {ds : List Char} (he : e = 'e' ∨ e = 'E')
      (hsign : sign = '+' ∨ sign = '-') (hds : IsDigits ds) : IsExponent (e :: sign :: ds)

/-- A number: a whole part after a minus or none, a fraction or none, an exponent or none. -/
inductive IsNumber : List Char → Prop
  | mk {minus whole fraction exponent : List Char} (hminus : minus = [] ∨ minus = ['-'])
      (hwhole : IsWhole whole) (hfraction : IsFraction fraction)
      (hexponent : IsExponent exponent) :
      IsNumber (minus ++ (whole ++ (fraction ++ exponent)))

section

variable {s : List Char}

theorem isDigit_eq : Text.isDigit = Char.isDigit :=
  rfl

theorem not_isDigit_of_sign {c : Char} (h : c = '+' ∨ c = '-') : c.isDigit = false := by
  rcases h with rfl | rfl <;> rfl

theorem isExponent_iff : isExponent s = true ↔ IsExponent s := by
  constructor
  · intro h
    unfold isExponent at h
    split at h
    · exact .absent
    · rename_i e r
      simp only [Bool.and_eq_true, Bool.or_eq_true, beq_iff_eq] at h
      obtain ⟨he, h⟩ := h
      split at h
      · cases h
      · rename_i c ds
        split at h
        · rename_i hsign
          simp only [Bool.and_eq_true, Bool.not_eq_true', List.isEmpty_eq_false_iff,
            List.all_eq_true] at h
          exact .signed he hsign h
        · rw [List.all_eq_true] at h
          exact .unsigned he ⟨List.cons_ne_nil _ _, h⟩
  · intro h
    cases h with
    | absent => rfl
    | @unsigned e ds he hds =>
      obtain ⟨hne, hds⟩ := hds
      cases ds with
      | nil => exact absurd rfl hne
      | cons c ds =>
        have hsign : ¬ (c = '+' ∨ c = '-') := fun hsign => by
          have hno := not_isDigit_of_sign hsign
          rw [hds c List.mem_cons_self] at hno
          cases hno
        simpa [isExponent, isDigit_eq, he, hsign] using hds
    | @signed e sign ds he hsign hds =>
      simpa [isExponent, isDigit_eq, he, hsign, IsDigits] using hds

theorem IsExponent.head (h : IsExponent s) {c : Char} (hc : c ∈ s.head?) :
    c = 'e' ∨ c = 'E' := by
  cases h with
  | absent => cases hc
  | unsigned he | signed he =>
    cases hc
    exact he

theorem isNumeralTail_iff :
    isNumeralTail s = true ↔
      ∃ fraction exponent, s = fraction ++ exponent ∧ IsFraction fraction ∧
        IsExponent exponent := by
  constructor
  · intro h
    unfold isNumeralTail at h
    split at h
    · rename_i r
      rw [Bool.and_eq_true, isExponent_iff] at h
      obtain ⟨hfirst, hrest⟩ := h
      have hdigits : IsDigits (r.takeWhile Text.isDigit) := by
        refine ⟨?_, List.all_eq_true.1 List.all_takeWhile⟩
        cases r with
        | nil => cases hfirst
        | cons c r =>
          rw [List.takeWhile_cons_of_pos (p := Text.isDigit) hfirst]
          exact List.cons_ne_nil _ _
      refine ⟨'.' :: r.takeWhile Text.isDigit, _, ?_, .digits hdigits, hrest⟩
      rw [List.cons_append, List.takeWhile_append_dropWhile]
    · exact ⟨[], s, rfl, .absent, isExponent_iff.1 h⟩
  · rintro ⟨fraction, exponent, rfl, hfraction, hexponent⟩
    cases hfraction with
    | absent =>
      unfold isNumeralTail
      split
      · rename_i r hr
        rw [List.nil_append] at hr
        have hpoint : '.' ∈ exponent.head? := by
          rw [hr]
          rfl
        rcases hexponent.head hpoint with h | h <;> cases h
      · exact isExponent_iff.2 hexponent
    | @digits ds hds =>
      have hrest : ∀ c ∈ exponent.head?, c.isDigit = false := fun c hc => by
        rcases hexponent.head hc with rfl | rfl <;> rfl
      rw [List.cons_append, isNumeralTail, isDigit_eq, dropWhile_run hds.2 hrest, Bool.and_eq_true,
        isExponent_iff]
      refine ⟨?_, hexponent⟩
      obtain ⟨hne, hds⟩ := hds
      cases ds with
      | nil => exact absurd rfl hne
      | cons c ds => exact hds c List.mem_cons_self

theorem head_fraction_exponent {fraction exponent : List Char} (hfraction : IsFraction fraction)
    (hexponent : IsExponent exponent) :
    ∀ c ∈ (fraction ++ exponent).head?, c.isDigit = false := by
  intro c hc
  cases hfraction with
  | absent => rcases hexponent.head hc with rfl | rfl <;> rfl
  | digits =>
    cases hc
    rfl

theorem isUnsignedNumeral_iff :
    isUnsignedNumeral s = true ↔
      ∃ whole fraction exponent, s = whole ++ (fraction ++ exponent) ∧ IsWhole whole ∧
        IsFraction fraction ∧ IsExponent exponent := by
  constructor
  · intro h
    unfold isUnsignedNumeral at h
    split at h
    · cases h
    · obtain ⟨fraction, exponent, rfl, hfraction, hexponent⟩ := isNumeralTail_iff.1 h
      exact ⟨['0'], fraction, exponent, rfl, .zero, hfraction, hexponent⟩
    · rename_i c r hne
      rw [Bool.and_eq_true, isNumeralTail_iff] at h
      obtain ⟨hc, fraction, exponent, hrest, hfraction, hexponent⟩ := h
      refine ⟨c :: r.takeWhile Text.isDigit, fraction, exponent, ?_, ?_, hfraction, hexponent⟩
      · rw [← hrest, List.cons_append, List.takeWhile_append_dropWhile]
      · exact .positive hc hne (List.all_eq_true.1 List.all_takeWhile)
  · rintro ⟨whole, fraction, exponent, rfl, hwhole, hfraction, hexponent⟩
    have htail : isNumeralTail (fraction ++ exponent) = true :=
      isNumeralTail_iff.2 ⟨_, _, rfl, hfraction, hexponent⟩
    cases hwhole with
    | zero => exact htail
    | @positive d ds hd hne hds =>
      rw [List.cons_append]
      unfold isUnsignedNumeral
      split
      · contradiction
      · rename_i h
        cases h
        exact absurd rfl hne
      · rename_i h
        cases h
        rw [isDigit_eq, dropWhile_run hds (head_fraction_exponent hfraction hexponent), hd, htail]
        rfl

theorem IsWhole.head {whole : List Char} (h : IsWhole whole) :
    ∃ d ds, whole = d :: ds ∧ d.isDigit = true := by
  cases h with
  | zero => exact ⟨_, _, rfl, rfl⟩
  | positive hd => exact ⟨_, _, rfl, hd⟩

theorem isNumeral_iff : isNumeral s = true ↔ IsNumber s := by
  constructor
  · intro h
    unfold isNumeral at h
    split at h
    · obtain ⟨_, _, _, rfl, hwhole, hfraction, hexponent⟩ := isUnsignedNumeral_iff.1 h
      exact .mk (.inr rfl) hwhole hfraction hexponent
    · obtain ⟨_, _, _, rfl, hwhole, hfraction, hexponent⟩ := isUnsignedNumeral_iff.1 h
      exact .mk (.inl rfl) hwhole hfraction hexponent
  · rintro ⟨hminus, hwhole, hfraction, hexponent⟩
    have hunsigned := isUnsignedNumeral_iff.2 ⟨_, _, _, rfl, hwhole, hfraction, hexponent⟩
    rcases hminus with rfl | rfl
    · unfold isNumeral
      split
      · rename_i r hr
        obtain ⟨d, ds, rfl, hd⟩ := hwhole.head
        cases hr
        cases hd
      · exact hunsigned
    · exact hunsigned

end

/-! ## Strings -/

/-- A hexadecimal digit of either case, and its number. -/
inductive HexDigit : Char → Nat → Prop
  | decimal {c : Char} {n : Nat} (hn : n < 10) (hc : c.toNat = 0x30 + n) : HexDigit c n
  | lower {c : Char} {n : Nat} (hn : n < 6) (hc : c.toNat = 0x61 + n) : HexDigit c (10 + n)
  | upper {c : Char} {n : Nat} (hn : n < 6) (hc : c.toNat = 0x41 + n) : HexDigit c (10 + n)

/-- Four hexadecimal digits, and their number. -/
inductive HexCode : List Char → Nat → Prop
  | mk {a b c d : Char} {k l m n : Nat} (ha : HexDigit a k) (hb : HexDigit b l)
      (hc : HexDigit c m) (hd : HexDigit d n) :
      HexCode [a, b, c, d] (0x1000 * k + 0x100 * l + 0x10 * m + n)

/-- The letters that make an escape after a backslash, and the characters they stand for. -/
inductive LetterEscape : Char → Char → Prop
  | quote : LetterEscape '"' '"'
  | backslash : LetterEscape '\\' '\\'
  | slash : LetterEscape '/' '/'
  | backspace : LetterEscape 'b' '\x08'
  | formFeed : LetterEscape 'f' '\x0c'
  | lineFeed : LetterEscape 'n' '\n'
  | carriageReturn : LetterEscape 'r' '\r'
  | tab : LetterEscape 't' '\t'

/-- The ways to write a character by itself or in one escape. The quote, the backslash and the
control characters are escaped always. -/
inductive CharWritten : Char → List Char → Prop
  | plain {c : Char} (hquote : c ≠ '"') (hbackslash : c ≠ '\\') (hcontrol : 0x20 ≤ c.toNat) :
      CharWritten c [c]
  | letter {e c : Char} (h : LetterEscape e c) : CharWritten c ['\\', e]
  | code {c : Char} {ds : List Char} (h : HexCode ds c.toNat) : CharWritten c ('\\' :: 'u' :: ds)

/-- The ways to write the characters of a text between the quotes: one after the other, where one
above the basic plane may also be written as the two halves of its surrogate pair. -/
inductive TextWritten : List Char → List Char → Prop
  | nil : TextWritten [] []
  | char {c : Char} {cs w body : List Char} (hc : CharWritten c w) (hcs : TextWritten cs body) :
      TextWritten (c :: cs) (w ++ body)
  | pair {c : Char} {cs ds es body : List Char} {high low : Nat} (hhigh : high < 0x400)
      (hlow : low < 0x400) (hds : HexCode ds (0xD800 + high)) (hes : HexCode es (0xDC00 + low))
      (hc : c.toNat = 0x10000 + high * 0x400 + low) (hcs : TextWritten cs body) :
      TextWritten (c :: cs) ('\\' :: 'u' :: (ds ++ '\\' :: 'u' :: (es ++ body)))

/-- What may stand between the quotes: written characters and four-digit escapes of any number. -/
inductive IsBody : List Char → Prop
  | nil : IsBody []
  | char {c : Char} {w body : List Char} (hc : CharWritten c w) (h : IsBody body) :
      IsBody (w ++ body)
  | code {ds body : List Char} {n : Nat} (hds : HexCode ds n) (h : IsBody body) :
      IsBody ('\\' :: 'u' :: (ds ++ body))

/-! ### Escapes -/

section

variable {a b c d : Char} {n : Nat} {ds : List Char}

theorem HexDigit.lt (h : HexDigit c n) : n < 16 := by
  cases h <;> omega

theorem HexCode.lt (h : HexCode ds n) : n < 0x10000 := by
  obtain ⟨ha, hb, hc, hd⟩ := h
  have := ha.lt
  have := hb.lt
  have := hc.lt
  have := hd.lt
  omega

theorem hexValue?_eq_some_iff : Text.hexValue? c = some n ↔ HexDigit c n := by
  have hle (x y : Char) : x ≤ y ↔ x.toNat ≤ y.toNat := Iff.rfl
  simp only [Text.hexValue?, hle, Char.reduceToNat]
  constructor
  · intro h
    split_ifs at h with hdecimal hlower hupper <;> obtain rfl := Option.some.inj h
    · exact .decimal (by omega) (by omega)
    · rw [Nat.add_comm]
      exact .lower (by omega) (by omega)
    · rw [Nat.add_comm]
      exact .upper (by omega) (by omega)
  · rintro (⟨hn, hc⟩ | ⟨hn, hc⟩ | ⟨hn, hc⟩) <;> rw [hc]
    · rw [if_pos (by omega)]
      congr 1
      omega
    · rw [if_neg (by omega), if_pos (by omega)]
      congr 1
      omega
    · rw [if_neg (by omega), if_neg (by omega), if_pos (by omega)]
      congr 1
      omega

theorem code?_eq_some_iff : code? a b c d = some n ↔ HexCode [a, b, c, d] n := by
  simp only [code?, Option.bind_eq_bind, Option.bind_eq_some_iff, Option.pure_def,
    Option.some.injEq, hexValue?_eq_some_iff]
  constructor
  · rintro ⟨k, ha, l, hb, m, hc, n, hd, rfl⟩
    have hvalue : ((k * 16 + l) * 16 + m) * 16 + n = 0x1000 * k + 0x100 * l + 0x10 * m + n := by
      omega
    exact hvalue ▸ .mk ha hb hc hd
  · rintro ⟨ha, hb, hc, hd⟩
    exact ⟨_, ha, _, hb, _, hc, _, hd, by omega⟩

theorem letterEscape?_eq_some_iff {e : Char} : letterEscape? e = some c ↔ LetterEscape e c := by
  constructor
  · intro h
    unfold letterEscape? at h
    split_ifs at h <;> cases h
    · rename_i hself
      rcases hself with rfl | rfl | rfl <;> constructor
    all_goals
      subst e
      constructor
  · intro h
    cases h <;> rfl

end

/-! ### Elements -/

/-- The ways to write an element of a string. -/
inductive Piece.Written : Piece → List Char → Prop
  | char {c : Char} {w : List Char} (h : CharWritten c w) : Written (.char c) w
  | high {n : Nat} {ds : List Char} (hn : n < 0x400) (h : HexCode ds (0xD800 + n)) :
      Written (.high n) ('\\' :: 'u' :: ds)
  | low {n : Nat} {ds : List Char} (hn : n < 0x400) (h : HexCode ds (0xDC00 + n)) :
      Written (.low n) ('\\' :: 'u' :: ds)

/-- The elements of a string one after the other. -/
inductive SpellsPieces : List Piece → List Char → Prop
  | nil : SpellsPieces [] []
  | cons {p : Piece} {ps : List Piece} {w s : List Char} (hp : p.Written w)
      (hps : SpellsPieces ps s) : SpellsPieces (p :: ps) (w ++ s)

section

variable {n : Nat} {ds : List Char}

theorem toNat_ofNat_of_valid (h : n.isValidChar) : (Char.ofNat n).toNat = n := by
  rw [Char.ofNat, dif_pos h]
  rfl

theorem ofCode_high (h : n < 0x400) : Piece.ofCode (0xD800 + n) = .high n := by
  rw [Piece.ofCode, if_pos (by omega), Nat.add_sub_cancel_left]

theorem ofCode_low (h : n < 0x400) : Piece.ofCode (0xDC00 + n) = .low n := by
  rw [Piece.ofCode, if_neg (by omega), if_pos (by omega), Nat.add_sub_cancel_left]

/-- No character is a half of a surrogate pair. -/
theorem ofCode_toNat (c : Char) : Piece.ofCode c.toNat = .char c := by
  have hvalid : c.toNat < 0xD800 ∨ 0xDFFF < c.toNat ∧ c.toNat < 0x110000 := c.valid
  rw [Piece.ofCode, if_neg (by omega), if_neg (by omega), Char.ofNat_toNat]

theorem written_ofCode (h : HexCode ds n) : (Piece.ofCode n).Written ('\\' :: 'u' :: ds) := by
  have hbound := h.lt
  by_cases hhigh : 0xD800 ≤ n ∧ n ≤ 0xDBFF
  · obtain ⟨k, rfl⟩ := Nat.exists_eq_add_of_le hhigh.1
    have hk : k < 0x400 := by omega
    exact ofCode_high hk ▸ .high hk h
  by_cases hlow : 0xDC00 ≤ n ∧ n ≤ 0xDFFF
  · obtain ⟨k, rfl⟩ := Nat.exists_eq_add_of_le hlow.1
    have hk : k < 0x400 := by omega
    exact ofCode_low hk ▸ .low hk h
  · have hvalid : n.isValidChar := by
      unfold Nat.isValidChar
      omega
    rw [← toNat_ofNat_of_valid hvalid] at h
    rw [Piece.ofCode, if_neg hhigh, if_neg hlow]
    exact .char (.code h)

end

/-- What is read of a string up to its quote is written so. -/
theorem exists_spellsPieces {s : List Char} {ps : List Piece} {rest : List Char}
    (h : scanString s = some (ps, rest)) :
    ∃ body, SpellsPieces ps body ∧ s = body ++ '"' :: rest := by
  fun_induction scanString s generalizing ps with
  | case1 => cases h
  | case2 =>
    cases h
    exact ⟨[], .nil, rfl⟩
  | case3 h₁ h₂ h₃ h₄ r n ps' rest' hrest hcode _ ih =>
    cases h
    obtain ⟨body, hbody, rfl⟩ := ih hrest
    exact ⟨_, .cons (written_ofCode (code?_eq_some_iff.1 hcode)) hbody, by simp⟩
  | case4 => cases h
  | case5 e r _ c ps' rest' hrest hletter _ ih =>
    cases h
    obtain ⟨body, hbody, rfl⟩ := ih hrest
    exact ⟨_, .cons (.char (.letter (letterEscape?_eq_some_iff.1 hletter))) hbody, by simp⟩
  | case6 => cases h
  | case7 => cases h
  | case8 => cases h
  | case9 c r hquote hbackslash hcontrol ps' rest' hrest ih =>
    cases h
    obtain ⟨body, hbody, rfl⟩ := ih hrest
    exact ⟨_, .cons (.char (.plain hquote hbackslash (by omega))) hbody, by simp⟩
  | case10 => cases h

theorem scanString_code {ds s rest : List Char} {n : Nat} {ps : List Piece} (h : HexCode ds n)
    (hs : scanString s = some (ps, rest)) :
    scanString ('\\' :: 'u' :: ds ++ s) = some (.ofCode n :: ps, rest) := by
  obtain ⟨ha, hb, hc, hd⟩ := h
  have hcode := code?_eq_some_iff.2 (.mk ha hb hc hd)
  simp only [List.cons_append, List.nil_append]
  unfold scanString
  simp [hcode, hs]

/-- What is written before the quote is read of a string. -/
theorem scanString_of_spellsPieces {ps : List Piece} {body : List Char}
    (h : SpellsPieces ps body) (rest : List Char) :
    scanString (body ++ '"' :: rest) = some (ps, rest) := by
  induction h with
  | nil =>
    rw [List.nil_append]
    unfold scanString
    rw [if_pos rfl]
  | @cons p ps w s hp _ ih =>
    rw [List.append_assoc]
    cases hp with
    | high hn hcode => rw [scanString_code hcode ih, ofCode_high hn]
    | low hn hcode => rw [scanString_code hcode ih, ofCode_low hn]
    | char hc =>
      cases hc with
      | plain hquote hbackslash hcontrol =>
        have hplain : ¬ _ := Nat.not_lt.2 hcontrol
        rw [List.singleton_append]
        unfold scanString
        rw [if_neg hquote, if_neg hbackslash, if_neg hplain, ih]
      | @letter e c hletter =>
        have hu : e ≠ 'u' := by
          rintro rfl
          cases hletter
        rw [List.cons_append, List.singleton_append]
        unfold scanString
        simp [letterEscape?_eq_some_iff.2 hletter, ih, hu]
      | code hcode => rw [scanString_code hcode ih, ofCode_toNat]

/-! ### Texts -/

section

variable {ps ps' : List Piece} {cs body : List Char}

/-- The elements written between two quotes are told by what stands there. -/
theorem SpellsPieces.unique (h : SpellsPieces ps body) (h' : SpellsPieces ps' body) : ps = ps' := by
  have heq := (scanString_of_spellsPieces h []).symm.trans (scanString_of_spellsPieces h' [])
  cases heq
  rfl

theorem isBody_iff : IsBody body ↔ ∃ ps, SpellsPieces ps body := by
  constructor
  · intro h
    induction h with
    | nil => exact ⟨[], .nil⟩
    | char hc _ ih =>
      obtain ⟨ps, hps⟩ := ih
      exact ⟨_, .cons (.char hc) hps⟩
    | code hds _ ih =>
      obtain ⟨ps, hps⟩ := ih
      exact ⟨_, .cons (written_ofCode hds) hps⟩
  · rintro ⟨ps, h⟩
    induction h with
    | nil => exact .nil
    | cons hp _ ih =>
      cases hp with
      | char hc => exact .char hc ih
      | high _ hds | low _ hds => exact .code hds ih

theorem textWritten_of_joinPieces (h : SpellsPieces ps body) (hcs : joinPieces ps = some cs) :
    TextWritten cs body := by
  fun_induction joinPieces ps generalizing cs body with
  | case1 =>
    cases hcs
    cases h
    exact .nil
  | case2 c r ih =>
    obtain ⟨cs, hrest, rfl⟩ := Option.map_eq_some_iff.1 hcs
    obtain _ | ⟨⟨hc⟩, hr⟩ := h
    exact .char hc (ih hr hrest)
  | case3 high low r ih =>
    obtain ⟨cs, hrest, rfl⟩ := Option.map_eq_some_iff.1 hcs
    obtain _ | ⟨hhigh, _ | ⟨hlow, hr⟩⟩ := h
    cases hhigh with | high hhigh hds =>
    cases hlow with | low hlow hes =>
    have hvalid : (0x10000 + high * 0x400 + low).isValidChar := by
      unfold Nat.isValidChar
      omega
    simpa using TextWritten.pair hhigh hlow hds hes (toNat_ofNat_of_valid hvalid) (ih hr hrest)
  | case4 => cases hcs
  | case5 => cases hcs

theorem TextWritten.exists_spellsPieces (h : TextWritten cs body) :
    ∃ ps, SpellsPieces ps body ∧ joinPieces ps = some cs := by
  induction h with
  | nil => exact ⟨[], .nil, rfl⟩
  | char hc _ ih =>
    obtain ⟨ps, hps, hcs⟩ := ih
    exact ⟨_, .cons (.char hc) hps, by rw [joinPieces, hcs]; rfl⟩
  | @pair c _ _ _ _ high low hhigh hlow hds hes hc _ ih =>
    obtain ⟨ps, hps, hcs⟩ := ih
    refine ⟨.high high :: .low low :: ps, ?_, ?_⟩
    · simpa using SpellsPieces.cons (.high hhigh hds) (.cons (.low hlow hes) hps)
    · rw [joinPieces, hcs, ← hc, Char.ofNat_toNat]
      rfl

/-- The text of a string's elements is what is written, if any text is written so. -/
theorem joinPieces_eq_some_iff (h : SpellsPieces ps body) :
    joinPieces ps = some cs ↔ TextWritten cs body := by
  refine ⟨textWritten_of_joinPieces h, fun hcs => ?_⟩
  obtain ⟨ps', hps', hjoin⟩ := hcs.exists_spellsPieces
  rwa [h.unique hps']

end

/-! ## Tokens -/

/-- The ways to write a token. -/
inductive Written : Token → List Char → Prop
  | openArray : Written .openArray ['[']
  | closeArray : Written .closeArray [']']
  | openObject : Written .openObject ['\x7b']
  | closeObject : Written .closeObject ['\x7d']
  | comma : Written .comma [',']
  | colon : Written .colon [':']
  | null : Written .null ['n', 'u', 'l', 'l']
  | yes : Written (.bool true) ['t', 'r', 'u', 'e']
  | no : Written (.bool false) ['f', 'a', 'l', 's', 'e']
  | number {w : List Char} (h : IsNumber w) : Written (.number (String.ofList w)) w
  | text {cs body : List Char} (h : TextWritten cs body) :
      Written (.string (some (String.ofList cs))) ('"' :: (body ++ ['"']))
  | textless {body : List Char} (h : IsBody body) (hno : ∀ cs, ¬ TextWritten cs body) :
      Written (.string none) ('"' :: (body ++ ['"']))

/-- Only spaces, tabs and line ends. -/
def IsGap (s : List Char) : Prop :=
  ∀ c ∈ s, c = ' ' ∨ c = '\t' ∨ c = '\n' ∨ c = '\r'

/-- Tokens in order, with any space before each of them and after the last. -/
inductive Spells : List Token → List Char → Prop
  | nil {gap : List Char} (hgap : IsGap gap) : Spells [] gap
  | cons {t : Token} {ts : List Token} {gap w s : List Char} (hgap : IsGap gap)
      (ht : t.Written w) (hts : Spells ts s) : Spells (t :: ts) (gap ++ (w ++ s))

/-- The tokens that are written with word characters. -/
def IsWord : Token → Prop
  | .null | .bool _ | .number _ => True
  | _ => False

/-- No two words stand next to each other. -/
def WordsApart : List Token → Prop
  | [] => True
  | t :: ts => (t.IsWord → ∀ t' ∈ ts.head?, ¬ t'.IsWord) ∧ WordsApart ts

/-! ## Scanning -/

section

variable {c : Char} {t : Token} {w s : List Char} {ts : List Token}

/-- A string token is written as its elements are, between quotes. -/
theorem written_string_iff {text : Text} :
    Written (.string text) w ↔
      ∃ ps body, SpellsPieces ps body ∧ textOf ps = text ∧ w = '"' :: (body ++ ['"']) := by
  constructor
  · intro h
    cases h with
    | text h =>
      obtain ⟨ps, hps, hcs⟩ := h.exists_spellsPieces
      exact ⟨ps, _, hps, by rw [textOf, hcs]; rfl, rfl⟩
    | textless h hno =>
      obtain ⟨ps, hps⟩ := isBody_iff.1 h
      have hnone : joinPieces ps = none := by
        rw [Option.eq_none_iff_forall_ne_some]
        exact fun cs hcs => hno cs ((joinPieces_eq_some_iff hps).1 hcs)
      exact ⟨ps, _, hps, by rw [textOf, hnone]; rfl, rfl⟩
  · rintro ⟨ps, body, hps, rfl, rfl⟩
    rw [textOf]
    cases hjoin : joinPieces ps with
    | some cs => exact .text ((joinPieces_eq_some_iff hps).1 hjoin)
    | none =>
      refine .textless (isBody_iff.2 ⟨ps, hps⟩) fun cs hcs => ?_
      rw [(joinPieces_eq_some_iff hps).2 hcs] at hjoin
      cases hjoin

theorem ofMark?_cases (h : ofMark? c = some t) :
    (c = '[' ∧ t = .openArray) ∨ (c = ']' ∧ t = .closeArray) ∨
    (c = '\x7b' ∧ t = .openObject) ∨ (c = '\x7d' ∧ t = .closeObject) ∨
    (c = ',' ∧ t = .comma) ∨ (c = ':' ∧ t = .colon) := by
  unfold ofMark? at h
  split_ifs at h <;> cases h <;> simp_all

theorem written_of_ofMark? (h : ofMark? c = some t) : t.Written [c] := by
  rcases ofMark?_cases h with
    ⟨rfl, rfl⟩ | ⟨rfl, rfl⟩ | ⟨rfl, rfl⟩ | ⟨rfl, rfl⟩ | ⟨rfl, rfl⟩ | ⟨rfl, rfl⟩ <;> constructor

theorem written_of_ofWord? (h : ofWord? w = some t) : t.Written w := by
  unfold ofWord? at h
  split_ifs at h with hnull htrue hfalse hnumeral <;> cases h
  · subst w
    exact .null
  · subst w
    exact .yes
  · subst w
    exact .no
  · exact .number (isNumeral_iff.1 hnumeral)

theorem isSpace_iff : isSpace c = true ↔ c = ' ' ∨ c = '\t' ∨ c = '\n' ∨ c = '\r' := by
  simp [isSpace, or_assoc]

theorem Spells.space (hc : isSpace c = true) (h : Spells ts s) : Spells ts (c :: s) := by
  rw [isSpace_iff] at hc
  cases h with
  | nil hgap => exact .nil (List.forall_mem_cons.2 ⟨hc, hgap⟩)
  | @cons t ts gap w s hgap ht hts =>
    have hlonger : IsGap (c :: gap) := List.forall_mem_cons.2 ⟨hc, hgap⟩
    exact .cons hlonger ht hts

theorem Spells.written (ht : t.Written w) (h : Spells ts s) : Spells (t :: ts) (w ++ s) :=
  have hgap : IsGap [] := nofun
  .cons hgap ht h

/-- The scanner reads tokens only as they are written. -/
theorem spells_of_scan (h : scan s = some ts) : Spells ts s := by
  fun_induction scan s generalizing ts with
  | case1 =>
    cases h
    exact .nil nofun
  | case2 c r hspace ih => exact (ih h).space hspace
  | case3 r ps rest hread _ _ ih =>
    obtain ⟨ts, hrest, rfl⟩ := Option.map_eq_some_iff.1 h
    obtain ⟨body, hbody, rfl⟩ := exists_spellsPieces hread
    simpa using (ih hrest).written (written_string_iff.2 ⟨ps, body, hbody, rfl, rfl⟩)
  | case4 => cases h
  | case5 c r _ _ t hmark ih =>
    obtain ⟨ts, hrest, rfl⟩ := Option.map_eq_some_iff.1 h
    exact (ih hrest).written (written_of_ofMark? hmark)
  | case6 c r _ _ _ _ t hword _ ih =>
    obtain ⟨ts, hrest, rfl⟩ := Option.map_eq_some_iff.1 h
    have hspells := (ih hrest).written (written_of_ofWord? hword)
    rwa [List.cons_append, List.takeWhile_append_dropWhile] at hspells
  | case7 => cases h
  | case8 => cases h

theorem isWordChar_of_isDigit (h : c.isDigit = true) : isWordChar c = true := by
  simp [isWordChar, isDigit_eq, h]

/-- A number is a run of word characters. -/
theorem isWordChar_of_isNumber (h : IsNumber w) : ∀ c ∈ w, isWordChar c = true := by
  have hdigits {ds : List Char} (hds : ∀ c ∈ ds, c.isDigit = true) :
      ∀ c ∈ ds, isWordChar c = true := fun c hc => isWordChar_of_isDigit (hds c hc)
  obtain ⟨hminus, hwhole, hfraction, hexponent⟩ := h
  simp only [List.forall_mem_append]
  refine ⟨?_, ?_, ?_, ?_⟩
  · rcases hminus with rfl | rfl
    · exact nofun
    · exact List.forall_mem_singleton.2 rfl
  · cases hwhole with
    | zero => exact List.forall_mem_singleton.2 rfl
    | positive hd _ hds => exact List.forall_mem_cons.2 ⟨isWordChar_of_isDigit hd, hdigits hds⟩
  · cases hfraction with
    | absent => exact nofun
    | digits hds => exact List.forall_mem_cons.2 ⟨rfl, hdigits hds.2⟩
  · cases hexponent with
    | absent => exact nofun
    | unsigned he hds =>
      refine List.forall_mem_cons.2 ⟨?_, hdigits hds.2⟩
      rcases he with rfl | rfl <;> rfl
    | signed he hsign hds =>
      refine List.forall_mem_cons.2 ⟨?_, List.forall_mem_cons.2 ⟨?_, hdigits hds.2⟩⟩
      · rcases he with rfl | rfl <;> rfl
      · rcases hsign with rfl | rfl <;> rfl

theorem ofWord?_of_isNumber (h : IsNumber w) : ofWord? w = some (.number (String.ofList w)) := by
  have hnumeral := isNumeral_iff.2 h
  have hname {name : List Char} (hno : isNumeral name = false) : w ≠ name := by
    rintro rfl
    rw [hnumeral] at hno
    cases hno
  rw [ofWord?, if_neg (hname rfl), if_neg (hname rfl), if_neg (hname rfl), if_pos hnumeral]

theorem isWordChar_of_isSpace (h : isSpace c = true) : isWordChar c = false := by
  simp only [isSpace, Bool.or_eq_true, beq_iff_eq] at h
  rcases h with ((rfl | rfl) | rfl) | rfl <;> rfl

theorem isWordChar_of_ofMark? (h : ofMark? c = some t) : isWordChar c = false := by
  rcases ofMark?_cases h with
    ⟨rfl, rfl⟩ | ⟨rfl, rfl⟩ | ⟨rfl, rfl⟩ | ⟨rfl, rfl⟩ | ⟨rfl, rfl⟩ | ⟨rfl, rfl⟩ <;> rfl

theorem scan_gap {gap : List Char} (h : IsGap gap) : scan (gap ++ s) = scan s := by
  induction gap with
  | nil => rfl
  | cons c gap ih =>
    obtain ⟨hc, hgap⟩ := List.forall_mem_cons.1 h
    rw [List.cons_append, scan, if_pos (isSpace_iff.2 hc), ih hgap]

theorem scan_mark (hspace : isSpace c = false) (hquote : c ≠ '"') (h : ofMark? c = some t) :
    scan (c :: s) = (scan s).map (t :: ·) := by
  rw [scan, if_neg (by simp [hspace]), if_neg hquote]
  simp [h]

theorem scan_word (hne : w ≠ []) (hw : w.all isWordChar = true) (ht : ofWord? w = some t)
    (hs : ∀ c ∈ s.head?, isWordChar c = false) : scan (w ++ s) = (scan s).map (t :: ·) := by
  cases w with
  | nil => exact absurd rfl hne
  | cons c r =>
    obtain ⟨hc, hr⟩ := List.forall_mem_cons.1 (List.all_eq_true.1 hw)
    have hspace : isSpace c = false := by
      cases h : isSpace c with
      | false => rfl
      | true => rw [isWordChar_of_isSpace h] at hc; cases hc
    have hquote : c ≠ '"' := by
      rintro rfl
      cases hc
    have hmark : ofMark? c = none := by
      cases h : ofMark? c with
      | none => rfl
      | some t => rw [isWordChar_of_ofMark? h] at hc; cases hc
    rw [List.cons_append, scan, if_neg (by simp [hspace]), if_neg hquote]
    simp only [hmark, hc, takeWhile_run hr hs, dropWhile_run hr hs, ht, if_true]

theorem scan_string {text : Text} (h : Written (.string text) w) :
    scan (w ++ s) = (scan s).map (.string text :: ·) := by
  obtain ⟨ps, body, hps, rfl, rfl⟩ := written_string_iff.1 h
  have hstring := scanString_of_spellsPieces hps s
  have happend : '"' :: (body ++ ['"']) ++ s = '"' :: (body ++ '"' :: s) := by simp
  rw [happend, scan, if_neg (by decide), if_pos rfl]
  split
  · rename_i ps' rest hread
    rw [hstring] at hread
    cases hread
    rfl
  · rename_i hread
    rw [hstring] at hread
    cases hread

theorem scan_written (ht : t.Written w) (hs : t.IsWord → ∀ c ∈ s.head?, isWordChar c = false) :
    scan (w ++ s) = (scan s).map (t :: ·) := by
  cases ht with
  | openArray | closeArray | openObject | closeObject | comma | colon =>
    exact scan_mark rfl (by decide) rfl
  | null | yes | no => exact scan_word (List.cons_ne_nil _ _) rfl rfl (hs trivial)
  | number h =>
    have hne : w ≠ [] := by
      rintro rfl
      cases isNumeral_iff.2 h
    have hw := List.all_eq_true.2 (isWordChar_of_isNumber h)
    exact scan_word hne hw (ofWord?_of_isNumber h) (hs trivial)
  | text h => exact scan_string (.text h)
  | textless h hno => exact scan_string (.textless h hno)

/-- What is written starts no word, unless it is of a word. -/
theorem Spells.head (h : Spells ts s) (hts : ∀ t ∈ ts.head?, ¬ t.IsWord) :
    ∀ c ∈ s.head?, isWordChar c = false := by
  have hstart {gap : List Char} (hgap : IsGap gap) {r : List Char}
      (hr : ∀ c ∈ r.head?, isWordChar c = false) :
      ∀ c ∈ (gap ++ r).head?, isWordChar c = false := by
    cases gap with
    | nil => exact hr
    | cons d gap =>
      rintro c ⟨⟩
      exact isWordChar_of_isSpace (isSpace_iff.2 (hgap d List.mem_cons_self))
  cases h with
  | nil hgap => simpa using hstart hgap (r := []) nofun
  | cons hgap ht =>
    refine hstart hgap ?_
    have hword := hts _ rfl
    cases ht with
    | null | yes | no | number => exact absurd trivial hword
    | _ =>
      rintro c ⟨⟩
      rfl

/-- The scanner reads tokens however they are written, if no two words stand together. -/
theorem Spells.scan_eq (h : Spells ts s) (hapart : WordsApart ts) : scan s = some ts := by
  induction h with
  | nil hgap => simpa [scan] using scan_gap (s := []) hgap
  | cons hgap ht hts ih =>
    obtain ⟨hfirst, hrest⟩ := hapart
    rw [scan_gap hgap, scan_written ht fun hword => hts.head (hfirst hword), ih hrest]
    rfl

end

/-! ## Words in the tokens of a value -/

/-- Tokens that may follow a word. -/
structure IsTail (ts : List Token) : Prop where
  head : ∀ t ∈ ts.head?, ¬ t.IsWord
  apart : WordsApart ts

theorem isTail_cons {t : Token} {ts : List Token} (ht : ¬ t.IsWord) (hts : WordsApart ts) :
    IsTail (t :: ts) where
  head := by
    rintro t' ⟨⟩
    exact ht
  apart := ⟨fun h => absurd h ht, hts⟩

mutual

theorem wordsApart_value : ∀ (v : Value) {rest : List Token}, IsTail rest →
    WordsApart (v.tokens ++ rest)
  | .null, _, h => ⟨fun _ => h.head, h.apart⟩
  | .bool _, _, h => ⟨fun _ => h.head, h.apart⟩
  | .number _, _, h => ⟨fun _ => h.head, h.apart⟩
  | .string _, _, h => (isTail_cons id h.apart).apart
  | .array [], _, h => (isTail_cons id (isTail_cons id h.apart).apart).apart
  | .array (v :: items), rest, h => by
    have hitems := isTail_moreItems items (isTail_cons (t := .closeArray) id h.apart)
    simpa [Value.tokens] using (isTail_cons (t := .openArray) id (wordsApart_value v hitems)).apart
  | .object [], _, h => (isTail_cons id (isTail_cons id h.apart).apart).apart
  | .object ((k, v) :: fields), rest, h => by
    have hfields := isTail_moreFields fields (isTail_cons (t := .closeObject) id h.apart)
    have hfield := isTail_cons (t := .string k) id
      (isTail_cons (t := .colon) id (wordsApart_value v hfields)).apart
    simpa [Value.tokens] using (isTail_cons (t := .openObject) id hfield.apart).apart

theorem isTail_moreItems : ∀ (items : List Value) {rest : List Token}, IsTail rest →
    IsTail (moreItems items ++ rest)
  | [], _, h => h
  | v :: items, rest, h => by
    have hitems := isTail_moreItems items h
    simpa [moreItems] using isTail_cons (t := .comma) id (wordsApart_value v hitems)

theorem isTail_moreFields : ∀ (fields : List (Text × Value)) {rest : List Token}, IsTail rest →
    IsTail (moreFields fields ++ rest)
  | [], _, h => h
  | (k, v) :: fields, rest, h => by
    have hfields := isTail_moreFields fields h
    have hfield := isTail_cons (t := .string k) id
      (isTail_cons (t := .colon) id (wordsApart_value v hfields)).apart
    simpa [moreFields] using isTail_cons (t := .comma) id hfield.apart

end

theorem wordsApart_tokens (v : Value) : WordsApart v.tokens := by
  have hnone : IsTail [] := ⟨nofun, trivial⟩
  simpa using wordsApart_value v hnone

end Token

/-! ## Values -/

/-- A text is one way to write a value. -/
def Value.WrittenAs (v : Value) (text : String) : Prop :=
  Token.Spells v.tokens text.toList

/-- A text is read as a value exactly if the value is written so. -/
theorem parse?_eq_some_iff {text : String} {v : Value} :
    parse? text = some v ↔ v.WrittenAs text := by
  unfold parse? Value.WrittenAs
  constructor
  · intro h
    split at h
    · rename_i ts hscan
      rw [← Reader.ofTokens?_eq_some_iff.1 h]
      exact Token.spells_of_scan hscan
    · cases h
  · intro h
    rw [h.scan_eq (Token.wordsApart_tokens v)]
    exact Reader.ofTokens?_eq_some_iff.2 rfl

end Parley.Json
