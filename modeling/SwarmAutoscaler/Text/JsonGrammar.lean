import SwarmAutoscaler.Text.Json

/-! The grammar of JSON texts, and that the reader takes every text of it: with blanks
between the tokens, numbers in any notation and strings with any escapes. The texts of the
writer are texts of the grammar, so what is written is read back. -/
namespace Json

section Grammar

/-- The blanks that may stand between tokens. -/
def Blank (text : List Char) : Prop := ∀ char ∈ text, char ∈ [' ', '\t', '\r', '\n']

/-- One digit or more. -/
def DigitRun (text : List Char) : Prop := text ≠ [] ∧ ∀ char ∈ text, char.isDigit = true

/-- The digits before the point have no 0 in front. -/
inductive Whole : List Char → Prop where
  | zero : Whole ['0']
  | positive {first : Char} {rest : List Char} (some : first ≠ '0') (digits : DigitRun (first :: rest)) :
      Whole (first :: rest)

/-- The optional fraction of a number. -/
inductive Fraction : List Char → Prop where
  | none : Fraction []
  | some {text : List Char} (digits : DigitRun text) : Fraction ('.' :: text)

/-- The optional exponent of a number, with either letter and an optional sign. -/
inductive Exponent : List Char → Prop where
  | none : Exponent []
  | some {mark : Char} {sign text : List Char} (marked : mark = 'e' ∨ mark = 'E')
      (signed : sign = [] ∨ sign = ['+'] ∨ sign = ['-']) (digits : DigitRun text) :
      Exponent (mark :: sign ++ text)

/-- A number in decimal. -/
def Numeral (literal : List Char) : Prop :=
  ∃ sign whole fraction exponent, literal = sign ++ whole ++ fraction ++ exponent ∧
    (sign = [] ∨ sign = ['-']) ∧ Whole whole ∧ Fraction fraction ∧ Exponent exponent

/-- A digit to the base 16, in either case. -/
def HexDigit (char : Char) (n : Nat) : Prop := n < 16 ∧ char ∈ [Nat.digitChar n, (Nat.digitChar n).toUpper]

/-- What may stand behind a backslash, with its meaning. -/
def escapes : List (Char × Char) :=
  [('"', '"'), ('\\', '\\'), ('/', '/'), ('b', '\x08'), ('f', '\x0c'), ('n', '\n'), ('r', '\r'), ('t', '\t')]

/-- What stands between quotes, with the code points and UTF-16 units it is written for. -/
inductive Written : List Char → List Nat → Prop where
  | nil : Written [] []
  | char {char : Char} {raw : List Char} {units : List Nat} (quote : char ≠ '"') (backslash : char ≠ '\\')
      (printable : 0x20 ≤ char.toNat) (rest : Written raw units) : Written (char :: raw) (char.toNat :: units)
  | escape {mark meaning : Char} {raw : List Char} {units : List Nat} (known : (mark, meaning) ∈ escapes)
      (rest : Written raw units) : Written ('\\' :: mark :: raw) (meaning.toNat :: units)
  | unit {a b c d : Char} {k l m n : Nat} {raw : List Char} {units : List Nat} (first : HexDigit a k)
      (second : HexDigit b l) (third : HexDigit c m) (fourth : HexDigit d n) (rest : Written raw units) :
      Written ('\\' :: 'u' :: a :: b :: c :: d :: raw) ((4096 * k + 256 * l + 16 * m + n) :: units)

/-- The upper and the lower half of a character beyond the first 65536. -/
def Upper (unit : Nat) : Prop := 0xD800 ≤ unit ∧ unit < 0xDC00

/-- The second half of a character that is written as two units. -/
def Lower (unit : Nat) : Prop := 0xDC00 ≤ unit ∧ unit < 0xE000

/-- The characters that are meant. Half of a pair without the other half is replaced. -/
inductive Means : List Nat → List Char → Prop where
  | nil : Means [] []
  | char {char : Char} {units : List Nat} {text : List Char} (rest : Means units text) :
      Means (char.toNat :: units) (char :: text)
  | pair {upper lower : Nat} {char : Char} {units : List Nat} {text : List Char} (first : Upper upper)
      (second : Lower lower) (whole : char.toNat = 0x10000 + 0x400 * (upper - 0xD800) + (lower - 0xDC00))
      (rest : Means units text) : Means (upper :: lower :: units) (char :: text)
  | half {unit : Nat} {units : List Nat} {text : List Char} (broken : Upper unit ∨ Lower unit)
      (alone : Upper unit → ∀ next ∈ units.head?, ¬ Lower next) (rest : Means units text) :
      Means (unit :: units) ('\uFFFD' :: text)

/-- What stands between quotes, with the string that is meant. -/
def Quoted (raw text : List Char) : Prop := ∃ units, Written raw units ∧ Means units text

/-- A value, a value with blanks around it, the inside of an array, a member, the inside of
an object. -/
inductive Part where
  | value (value : Value)
  | padded (value : Value)
  | items (items : List Value)
  | member (key : List Char) (value : Value)
  | members (members : List (List Char × Value))

/-- The texts of a part with at most `depth` arrays and objects within each other. -/
inductive Says : Nat → Part → List Char → Prop where
  | null {depth : Nat} : Says depth (.value .null) ['n', 'u', 'l', 'l']
  | true {depth : Nat} : Says depth (.value (.bool true)) ['t', 'r', 'u', 'e']
  | false {depth : Nat} : Says depth (.value (.bool false)) ['f', 'a', 'l', 's', 'e']
  | number {depth : Nat} {literal : List Char} (h : Numeral literal) : Says depth (.value (.number literal)) literal
  | string {depth : Nat} {raw text : List Char} (h : Quoted raw text) :
      Says depth (.value (.string text)) ('"' :: raw ++ ['"'])
  | emptyArray {depth : Nat} {blank : List Char} (h : Blank blank) :
      Says (depth + 1) (.value (.array [])) ('[' :: blank ++ [']'])
  | array {depth : Nat} {items : List Value} {text : List Char} (h : Says depth (.items items) text) :
      Says (depth + 1) (.value (.array items)) ('[' :: text ++ [']'])
  | emptyObject {depth : Nat} {blank : List Char} (h : Blank blank) :
      Says (depth + 1) (.value (.object [])) ('{' :: blank ++ ['}'])
  | object {depth : Nat} {members : List (List Char × Value)} {text : List Char}
      (h : Says depth (.members members) text) : Says (depth + 1) (.value (.object members)) ('{' :: text ++ ['}'])
  | padded {depth : Nat} {value : Value} {before text after : List Char} (hBefore : Blank before)
      (h : Says depth (.value value) text) (hAfter : Blank after) :
      Says depth (.padded value) (before ++ text ++ after)
  | item {depth : Nat} {item : Value} {text : List Char} (h : Says depth (.padded item) text) :
      Says depth (.items [item]) text
  | items {depth : Nat} {item : Value} {items : List Value} {text rest : List Char}
      (h : Says depth (.padded item) text) (hRest : Says depth (.items items) rest) :
      Says depth (.items (item :: items)) (text ++ ',' :: rest)
  | named {depth : Nat} {key : List Char} {value : Value} {before raw after text : List Char}
      (hBefore : Blank before) (hKey : Quoted raw key) (hAfter : Blank after) (h : Says depth (.padded value) text) :
      Says depth (.member key value) (before ++ '"' :: raw ++ '"' :: after ++ ':' :: text)
  | member {depth : Nat} {key : List Char} {value : Value} {text : List Char}
      (h : Says depth (.member key value) text) : Says depth (.members [(key, value)]) text
  | members {depth : Nat} {key : List Char} {value : Value} {members : List (List Char × Value)}
      {text rest : List Char} (h : Says depth (.member key value) text)
      (hRest : Says depth (.members members) rest) :
      Says depth (.members ((key, value) :: members)) (text ++ ',' :: rest)

end Grammar

section Numbers

variable {text rest : List Char} {digits : Digits} {char : Char}

/-- How a number can end. -/
def Accepts (digits : Digits) (text : List Char) : Prop :=
  ∃ last, digits.follow text = some last ∧ last.final = true

theorem follow_append {other : List Char} :
    digits.follow (text ++ other) = (digits.follow text).bind fun digits => digits.follow other := by
  induction text generalizing digits with
  | nil => rfl
  | cons char text ih =>
      rw [List.cons_append, Digits.follow, Digits.follow, Option.bind_assoc]
      exact congrArg _ (funext fun _ => ih)

/-- More digits change nothing where digits have been read already. -/
theorem follow_digits (hStay : ∀ char : Char, char.isDigit = true → digits.next char = some digits)
    (hDigits : ∀ char ∈ text, char.isDigit = true) : digits.follow text = some digits := by
  induction text with
  | nil => rfl
  | cons char text ih =>
      rw [List.forall_mem_cons] at hDigits
      rw [Digits.follow, hStay char hDigits.1, Option.bind_some, ih hDigits.2]

theorem follow_run {first : Digits} (hFirst : ∀ char : Char, char.isDigit = true → first.next char = some digits)
    (hStay : ∀ char : Char, char.isDigit = true → digits.next char = some digits) (h : DigitRun text) :
    first.follow text = some digits := by
  obtain ⟨hSome, hDigits⟩ := h
  cases text with
  | nil => exact absurd rfl hSome
  | cons char text =>
      rw [List.forall_mem_cons] at hDigits
      rw [Digits.follow, hFirst char hDigits.1, Option.bind_some, follow_digits hStay hDigits.2]

/-- A digit is no other character of a number. -/
theorem not_mark_of_isDigit (h : char.isDigit = true) :
    char ≠ '-' ∧ char ≠ '+' ∧ char ≠ '.' ∧ char ≠ 'e' ∧ char ≠ 'E' := by
  refine ⟨?_, ?_, ?_, ?_, ?_⟩ <;>
    · rintro rfl
      cases h

theorem accepts_exponent (hMark : ∀ mark, mark = 'e' ∨ mark = 'E' → digits.next mark = some .exponent)
    (hFinal : digits.final = true) (h : Exponent text) : Accepts digits text := by
  cases h with
  | none => exact ⟨digits, rfl, hFinal⟩
  | @some mark sign text marked signed run =>
      have hPower (first : Digits) (hFirst : ∀ char : Char, char.isDigit = true → first.next char = some .power) :
          first.follow text = some .power :=
        follow_run hFirst (fun char hDigit => by simp [Digits.next, hDigit]) run
      refine ⟨.power, ?_, rfl⟩
      rw [List.cons_append, Digits.follow, hMark mark marked, Option.bind_some]
      rcases signed with rfl | rfl | rfl
      · exact hPower .exponent fun char hDigit => by simp [Digits.next, hDigit, not_mark_of_isDigit hDigit]
      all_goals exact hPower .exponentSign fun char hDigit => by simp [Digits.next, hDigit]

theorem accepts_fraction {exponent : List Char} (hTail : ∀ char, char.isDigit = false →
      digits.next char = Digits.tail char) (hFinal : digits.final = true) (h : Fraction text)
    (hExponent : Exponent exponent) : Accepts digits (text ++ exponent) := by
  cases h with
  | none =>
      refine accepts_exponent (fun mark hMark => ?_) hFinal hExponent
      rcases hMark with rfl | rfl <;> exact (hTail _ rfl).trans rfl
  | @some text run =>
      have hPoint : digits.next '.' = some .point := (hTail '.' rfl).trans rfl
      have hRun : Digits.point.follow text = some .fraction :=
        follow_run (fun char hDigit => by simp [Digits.next, hDigit])
          (fun char hDigit => by simp [Digits.next, hDigit]) run
      obtain ⟨last, hLast, hEnd⟩ := @accepts_exponent _ .fraction
        (fun mark hMark => by rcases hMark with rfl | rfl <;> rfl) rfl hExponent
      refine ⟨last, ?_, hEnd⟩
      rw [List.cons_append, Digits.follow, hPoint, Option.bind_some, follow_append, hRun, Option.bind_some, hLast]

theorem literal_of_numeral (h : Numeral text) : Literal text := by
  obtain ⟨sign, whole, fraction, exponent, rfl, hSign, hWhole, hFraction, hExponent⟩ := h
  have hZero := @accepts_fraction _ .zero _ (fun _ _ => rfl) rfl hFraction hExponent
  have hSome := @accepts_fraction _ .whole _ (fun char hNot => by simp [Digits.next, hNot]) rfl hFraction
    hExponent
  cases hWhole with
  | zero =>
      obtain ⟨last, hLast, hFinal⟩ := hZero
      rcases hSign with rfl | rfl
      · exact ⟨'0', fraction ++ exponent, last, by simp, hLast, hFinal⟩
      · exact ⟨'-', '0' :: (fraction ++ exponent), last, by simp, hLast, hFinal⟩
  | @positive first rest nonzero run =>
      obtain ⟨last, hLast, hFinal⟩ := hSome
      obtain ⟨hDigit, hDigits⟩ := List.forall_mem_cons.mp run.2
      have hRest : Digits.whole.follow (rest ++ (fraction ++ exponent)) = some last := by
        rw [follow_append, follow_digits (fun char hDigit => by simp [Digits.next, hDigit]) hDigits,
          Option.bind_some, hLast]
      rcases hSign with rfl | rfl
      · have hBegin : Digits.begin first = some .whole := by
          simp [Digits.begin, nonzero, hDigit, not_mark_of_isDigit hDigit]
        exact ⟨first, rest ++ (fraction ++ exponent), last, by simp, by rw [hBegin]; exact hRest, hFinal⟩
      · have hNext : Digits.sign.next first = some .whole := by simp [Digits.next, nonzero, hDigit]
        refine ⟨'-', first :: (rest ++ (fraction ++ exponent)), last, by simp, ?_, hFinal⟩
        show (Digits.sign.next first).bind _ = some last
        rw [hNext]
        exact hRest

end Numbers

section Strings

variable {char : Char} {text raw rest done : List Char} {units : List Nat} {unit n limit : Nat} {isKey : Bool}
  {stack : List Frame}

theorem hexValue_of_hexDigit (h : HexDigit char n) : hexValue char = some n := by
  have hBoth : ∀ n < 16, hexValue (Nat.digitChar n) = some n ∧ hexValue (Nat.digitChar n).toUpper = some n := by
    decide
  obtain ⟨hSmall, hChar⟩ := h
  rw [List.mem_cons, List.mem_singleton] at hChar
  rcases hChar with rfl | rfl
  · exact (hBoth n hSmall).1
  · exact (hBoth n hSmall).2

theorem codes_of_written (h : Written raw units) : codes .plain 0 raw = units := by
  induction h with
  | nil => rfl
  | char quote backslash printable rest ih => rw [codes, if_neg backslash, ih]
  | @escape mark meaning raw units known rest ih =>
      have hMeaning : ∀ pair ∈ escapes, pair.1 ≠ 'u' ∧ unescape pair.1 = pair.2 := by decide
      obtain ⟨hMark, hUnescape⟩ := hMeaning _ known
      rw [codes, if_pos rfl, codes, if_neg hMark, hUnescape, ih]
  | @unit a b c d k l m n raw units first second third fourth rest ih =>
      rw [codes, if_pos rfl, codes, if_pos rfl, codes, codes, codes, codes, ih, hexValue_of_hexDigit first,
        hexValue_of_hexDigit second, hexValue_of_hexDigit third, hexValue_of_hexDigit fourth]
      simp only [Option.getD_some, List.cons.injEq, and_true]
      omega

/-- A character is no half of a pair. -/
theorem not_surrogate (char : Char) : isHigh char.toNat = false ∧ isLow char.toNat = false := by
  have hValid := char.valid
  simp only [isHigh, isLow, Bool.and_eq_false_iff, decide_eq_false_iff_not]
  have hRange : char.toNat < 0xD800 ∨ 0xDFFF < char.toNat := by
    rcases hValid with h | h
    · exact Or.inl h
    · exact Or.inr h.1
  omega

theorem charOf_toNat (char : Char) : charOf char.toNat = char := by
  rw [charOf, (not_surrogate char).1, (not_surrogate char).2]
  exact Char.ofNat_toNat char

/-- A unit that is no half of a pair with the next one. -/
theorem join_cons (h : isHigh unit = true → ∀ next ∈ units.head?, isLow next = false) :
    join (unit :: units) = charOf unit :: join units := by
  cases units with
  | nil => rfl
  | cons next units =>
      rw [join, if_neg]
      rw [Bool.and_eq_true_iff]
      exact fun ⟨hHigh, hLow⟩ => by simp [h hHigh next rfl] at hLow

theorem isHigh_iff : isHigh unit = true ↔ Upper unit := by simp [isHigh, Upper]

theorem isLow_iff : isLow unit = true ↔ Lower unit := by simp [isLow, Lower]

theorem join_of_means (h : Means units text) : join units = text := by
  induction h with
  | nil => rfl
  | @char char units text rest ih =>
      rw [join_cons fun hHigh => absurd hHigh (by simp [not_surrogate]), charOf_toNat, ih]
  | @pair upper lower char units text first second whole rest ih =>
      have hPair : (isHigh upper && isLow lower) = true :=
        Bool.and_eq_true_iff.mpr ⟨isHigh_iff.mpr first, isLow_iff.mpr second⟩
      have hChar : Char.ofNat (0x10000 + (upper - 0xD800) * 0x400 + (lower - 0xDC00)) = char := by
        rw [Nat.mul_comm, ← whole, Char.ofNat_toNat]
      rw [join, if_pos hPair, hChar, ih]
  | @half unit units text broken alone rest ih =>
      have hBroken : (isHigh unit || isLow unit) = true :=
        Bool.or_eq_true_iff.mpr (broken.imp isHigh_iff.mpr isLow_iff.mpr)
      rw [join_cons, charOf, if_pos hBroken, ih]
      intro hHigh next hNext
      exact Bool.eq_false_iff.mpr fun hLow => alone (isHigh_iff.mp hHigh) next hNext (isLow_iff.mp hLow)

theorem unquote_of_quoted (h : Quoted raw text) : unquote raw = text := by
  obtain ⟨units, hWritten, hMeans⟩ := h
  rw [unquote, codes_of_written hWritten, join_of_means hMeans]

/-- Nothing of what is written between quotes ends the string. -/
theorem parse_written (h : Written raw units) :
    parse limit (.string isKey done .plain) stack (raw ++ rest) =
      parse limit (.string isKey (done ++ raw) .plain) stack rest := by
  induction h generalizing done with
  | nil => simp
  | char quote backslash printable _ ih =>
      have hPrintable := Nat.not_lt.mpr printable
      simp [parse, step, stepString, Escape.next, quote, backslash, hPrintable, ih]
  | @escape mark meaning raw units known _ ih =>
      have hKnown : ∀ pair ∈ escapes, Escape.begun.next pair.1 = some .plain := by decide
      have hBegun : Escape.plain.next '\\' = some .begun := rfl
      have hMark : Escape.begun.next mark = some .plain := hKnown _ known
      simp [parse, step, stepString, hBegun, hMark, ih]
  | @unit a b c d k l m n raw units first second third fourth _ ih =>
      simp [parse, step, stepString, Escape.next, hexValue_of_hexDigit first, hexValue_of_hexDigit second,
        hexValue_of_hexDigit third, hexValue_of_hexDigit fourth, ih]

end Strings

section Reader

/-- Where the reader goes on behind a value. -/
def finish (limit : Nat) (value : Value) : List Frame → List Char → Except Fault (Value × List Char)
  | [], rest => .ok (value, rest)
  | .array items :: stack, rest => parse limit .after (.array (items ++ [value]) :: stack) rest
  | .object members key :: stack, rest =>
      parse limit .after (.object (members ++ [(key, value)]) [] :: stack) rest

/-- The text does not go on with a number. -/
def Stops (rest : List Char) : Prop := ∀ char, rest.head? = some char → ∀ digits : Digits, digits.next char = none

/-- Only behind a number does it matter what comes next. -/
def Ends (value : Value) (rest : List Char) : Prop :=
  match value with
  | .number _ => Stops rest
  | _ => True

/-- Wherever the reader expects the part, it reads it in this text. -/
def Reads (limit depth : Nat) (text : List Char) : Part → Prop
  | .value value => ∀ stack rest first, stack.length + depth ≤ limit → Ends value rest →
      parse limit (.value first) stack (text ++ rest) = finish limit value stack rest
  | .padded value => ∀ frame stack rest first, stack.length + 1 + depth ≤ limit → Stops rest →
      parse limit (.value first) (frame :: stack) (text ++ rest) = finish limit value (frame :: stack) rest
  | .items items => ∀ stack done rest first, stack.length + 1 + depth ≤ limit →
      parse limit (.value first) (.array done :: stack) (text ++ ']' :: rest) =
        finish limit (.array (done ++ items)) stack rest
  | .member key value => ∀ stack done rest first, stack.length + 1 + depth ≤ limit → Stops rest →
      parse limit (.key first) (.object done [] :: stack) (text ++ rest) =
        parse limit .after (.object (done ++ [(key, value)]) [] :: stack) rest
  | .members members => ∀ stack done rest first, stack.length + 1 + depth ≤ limit →
      parse limit (.key first) (.object done [] :: stack) (text ++ '}' :: rest) =
        finish limit (.object (done ++ members)) stack rest

variable {limit depth : Nat} {mode : Mode} {stack stack' : List Frame} {char : Char}
  {rest raw text before after other key : List Char} {value item : Value} {digits last : Digits}
  {items : List Value} {members : List (List Char × Value)}

theorem parse_of_running {mode' : Mode} (h : step limit mode stack char = .running mode' stack') :
    parse limit mode stack (char :: rest) = parse limit mode' stack' rest := by
  rw [parse, h]

theorem parse_of_complete (h : step limit mode stack char = complete value stack') :
    parse limit mode stack (char :: rest) = finish limit value stack' rest := by
  rw [parse, h]
  cases stack' with
  | nil => rfl
  | cons frame stack' => cases frame <;> rfl

/-- Blanks are passed over wherever the reader is between tokens. -/
theorem parse_blank (hBlank : Blank text)
    (hStay : ∀ char, isSpace char = true → step limit mode stack char = .running mode stack) :
    parse limit mode stack (text ++ rest) = parse limit mode stack rest := by
  induction text with
  | nil => rfl
  | cons char text ih =>
      obtain ⟨hChar, hText⟩ := List.forall_mem_cons.mp hBlank
      have hSpace : isSpace char = true := by simpa [isSpace, or_assoc] using hChar
      rw [List.cons_append, parse_of_running (hStay char hSpace), ih hText]

theorem parse_blank_value {first : Bool} (hBlank : Blank text) :
    parse limit (.value first) stack (text ++ rest) = parse limit (.value first) stack rest :=
  parse_blank hBlank fun _ hSpace => if_pos hSpace

theorem parse_blank_key {first : Bool} (hBlank : Blank text) :
    parse limit (.key first) stack (text ++ rest) = parse limit (.key first) stack rest :=
  parse_blank hBlank fun _ hSpace => if_pos hSpace

theorem parse_blank_colon (hBlank : Blank text) :
    parse limit .colon stack (text ++ rest) = parse limit .colon stack rest :=
  parse_blank hBlank fun _ hSpace => if_pos hSpace

theorem parse_blank_after (hBlank : Blank text) :
    parse limit .after stack (text ++ rest) = parse limit .after stack rest :=
  parse_blank hBlank fun _ hSpace => if_pos hSpace

theorem ends_of_stops (h : Stops rest) : Ends value rest := by
  cases value with
  | number => exact h
  | null | bool | string | array | object => trivial

theorem stops_cons (h : char = ',' ∨ char = ']' ∨ char = '}') : Stops (char :: rest) := by
  intro other hOther digits
  cases hOther
  rcases h with rfl | rfl | rfl <;> cases digits <;> rfl

theorem stops_blank (hBlank : Blank text) (h : Stops rest) : Stops (text ++ rest) := by
  cases text with
  | nil => exact h
  | cons char text =>
      intro other hOther digits
      cases hOther
      have hChar := hBlank char (List.mem_cons_self ..)
      simp only [List.mem_cons, List.not_mem_nil, or_false] at hChar
      rcases hChar with rfl | rfl | rfl | rfl <;> cases digits <;> rfl

theorem parse_number (hFollow : digits.follow text = some last) (hFinal : last.final = true)
    (hStops : Stops rest) :
    parse limit (.number raw digits) stack (text ++ rest) = finish limit (.number (raw ++ text)) stack rest := by
  induction text generalizing raw digits with
  | nil =>
      cases hFollow
      rw [List.nil_append, List.append_nil]
      cases rest with
      | nil =>
          cases stack with
          | nil => simp [parse, atEnd, hFinal, finish, Except.map]
          | cons frame stack => cases frame <;> rfl
      | cons char rest =>
          have hEnd := hStops char rfl last
          cases stack with
          | nil => simp [parse, step, stepNumber, hEnd, hFinal, complete, finish]
          | cons frame stack => cases frame <;> simp [parse, step, stepNumber, hEnd, hFinal, complete, finish]
  | cons char text ih =>
      rw [Digits.follow, Option.bind_eq_some_iff] at hFollow
      obtain ⟨next, hNext, hFollow⟩ := hFollow
      have hStep : step limit (.number raw digits) stack char = .running (.number (raw ++ [char]) next) stack := by
        rw [step, stepNumber, hNext]
      rw [List.cons_append, parse_of_running hStep, ih hFollow, List.append_assoc, List.singleton_append]

/-- The characters that numbers begin with begin nothing else. -/
theorem begin_cases {first : Bool} (h : Digits.begin char = some digits) :
    step limit (.value first) stack char = .running (.number [char] digits) stack := by
  have hApart : char ∉ [' ', '\t', '\r', '\n', '{', '[', '"', 't', 'f', 'n'] := by
    intro hMem
    simp only [List.mem_cons, List.not_mem_nil, or_false] at hMem
    rcases hMem with rfl | rfl | rfl | rfl | rfl | rfl | rfl | rfl | rfl | rfl <;> cases h
  simp only [List.mem_cons, List.not_mem_nil, or_false, not_or] at hApart
  simp [step, stepValue, isSpace, hApart, h]

theorem reads_number (h : Numeral text) : Reads limit depth text (.value (.number text)) := by
  intro stack rest first _ hStops
  obtain ⟨char, tail, last, rfl, hFollow, hFinal⟩ := literal_of_numeral h
  obtain ⟨digits, hBegin, hFollow⟩ := Option.bind_eq_some_iff.mp hFollow
  rw [List.cons_append, parse_of_running (begin_cases hBegin), parse_number hFollow hFinal hStops]
  rfl

theorem reads_string (h : Quoted raw text) : Reads limit depth ('"' :: raw ++ ['"']) (.value (.string text)) := by
  intro stack rest first _ _
  have hOpen : step limit (.value first) stack '"' = .running (.string false [] .plain) stack := rfl
  have hClose : step limit (.string false raw .plain) stack '"' = complete (.string text) stack := by
    simp [step, stepString, closeString, unquote_of_quoted h]
  obtain ⟨units, hWritten, _⟩ := h
  rw [List.append_assoc, List.cons_append, parse_of_running hOpen, List.singleton_append, parse_written hWritten,
    List.nil_append, parse_of_complete hClose]

theorem parse_open (hRoom : stack.length + 1 + depth ≤ limit) (first : Bool) :
    parse limit (.value first) stack ('[' :: rest) = parse limit (.value true) (.array [] :: stack) rest ∧
      parse limit (.value first) stack ('{' :: rest) = parse limit (.key true) (.object [] [] :: stack) rest := by
  have hDeep : stack.length < limit := by omega
  exact ⟨parse_of_running (by simp [step, stepValue, isSpace, open?, hDeep]),
    parse_of_running (by simp [step, stepValue, isSpace, open?, hDeep])⟩

theorem reads_emptyArray (h : Blank text) : Reads limit (depth + 1) ('[' :: text ++ [']']) (.value (.array [])) := by
  intro stack rest first hRoom _
  rw [List.append_assoc, List.cons_append, (@parse_open _ depth _ _ (by omega) first).1, parse_blank_value h]
  exact parse_of_complete rfl

theorem reads_array (h : Reads limit depth text (.items items)) :
    Reads limit (depth + 1) ('[' :: text ++ [']']) (.value (.array items)) := by
  intro stack rest first hRoom _
  rw [List.append_assoc, List.cons_append, (@parse_open _ depth _ _ (by omega) first).1, List.singleton_append,
    h stack [] rest true (by omega), List.nil_append]

theorem reads_emptyObject (h : Blank text) : Reads limit (depth + 1) ('{' :: text ++ ['}']) (.value (.object [])) := by
  intro stack rest first hRoom _
  rw [List.append_assoc, List.cons_append, (@parse_open _ depth _ _ (by omega) first).2, parse_blank_key h]
  exact parse_of_complete rfl

theorem reads_object (h : Reads limit depth text (.members members)) :
    Reads limit (depth + 1) ('{' :: text ++ ['}']) (.value (.object members)) := by
  intro stack rest first hRoom _
  rw [List.append_assoc, List.cons_append, (@parse_open _ depth _ _ (by omega) first).2, List.singleton_append,
    h stack [] rest true (by omega), List.nil_append]

theorem reads_padded (hBefore : Blank before) (hAfter : Blank after) (h : Reads limit depth text (.value value)) :
    Reads limit depth (before ++ text ++ after) (.padded value) := by
  intro frame stack rest first hRoom hStops
  have hEnds : Ends value (after ++ rest) := ends_of_stops (stops_blank hAfter hStops)
  rw [List.append_assoc, List.append_assoc, parse_blank_value hBefore, h (frame :: stack) _ first hRoom hEnds]
  cases frame <;> exact parse_blank_after hAfter

theorem reads_item (h : Reads limit depth text (.padded item)) : Reads limit depth text (.items [item]) := by
  intro stack done rest first hRoom
  rw [h _ stack _ first hRoom (stops_cons (Or.inr (Or.inl rfl)))]
  exact parse_of_complete rfl

theorem reads_items (h : Reads limit depth text (.padded item)) (hRest : Reads limit depth other (.items items)) :
    Reads limit depth (text ++ ',' :: other) (.items (item :: items)) := by
  intro stack done rest first hRoom
  have hComma : step limit .after (.array (done ++ [item]) :: stack) ',' =
      .running (.value false) (.array (done ++ [item]) :: stack) := rfl
  rw [List.append_assoc, List.cons_append, h _ stack _ first hRoom (stops_cons (Or.inl rfl)), finish,
    parse_of_running hComma, hRest stack _ rest false hRoom, List.append_assoc, List.singleton_append]

theorem reads_named (hBefore : Blank before) (hKey : Quoted raw key) (hAfter : Blank after)
    (h : Reads limit depth text (.padded value)) :
    Reads limit depth (before ++ '"' :: raw ++ '"' :: after ++ ':' :: text) (.member key value) := by
  intro stack done rest first hRoom hStops
  have hOpen : step limit (.key first) (.object done [] :: stack) '"' =
      .running (.string true [] .plain) (.object done [] :: stack) := rfl
  have hClose : step limit (.string true raw .plain) (.object done [] :: stack) '"' =
      .running .colon (.object done key :: stack) := by
    simp [step, stepString, closeString, unquote_of_quoted hKey]
  have hColon : step limit .colon (.object done key :: stack) ':' =
      .running (.value false) (.object done key :: stack) := rfl
  have hText : before ++ '"' :: raw ++ '"' :: after ++ ':' :: text ++ rest =
      before ++ '"' :: (raw ++ '"' :: (after ++ ':' :: (text ++ rest))) := by simp
  obtain ⟨units, hWritten, _⟩ := hKey
  rw [hText, parse_blank_key hBefore, parse_of_running hOpen, parse_written hWritten, List.nil_append,
    parse_of_running hClose, parse_blank_colon hAfter, parse_of_running hColon, h _ stack rest false hRoom hStops,
    finish]

theorem reads_member (h : Reads limit depth text (.member key value)) :
    Reads limit depth text (.members [(key, value)]) := by
  intro stack done rest first hRoom
  rw [h stack done _ first hRoom (stops_cons (Or.inr (Or.inr rfl)))]
  exact parse_of_complete rfl

theorem reads_members (h : Reads limit depth text (.member key value))
    (hRest : Reads limit depth other (.members members)) :
    Reads limit depth (text ++ ',' :: other) (.members ((key, value) :: members)) := by
  intro stack done rest first hRoom
  have hComma : step limit .after (.object (done ++ [(key, value)]) [] :: stack) ',' =
      .running (.key false) (.object (done ++ [(key, value)]) [] :: stack) := rfl
  rw [List.append_assoc, List.cons_append, h stack done _ first hRoom (stops_cons (Or.inl rfl)),
    parse_of_running hComma, hRest stack _ rest false hRoom, List.append_assoc, List.singleton_append]

/-- Every text of the grammar is read as what it says. -/
theorem reads_of_says {part : Part} (h : Says depth part text) : Reads limit depth text part := by
  induction h with
  | null | true =>
      intro stack rest first _ _
      exact (parse_of_running rfl).trans ((parse_of_running rfl).trans
        ((parse_of_running rfl).trans (parse_of_complete rfl)))
  | false =>
      intro stack rest first _ _
      exact (parse_of_running rfl).trans ((parse_of_running rfl).trans
        ((parse_of_running rfl).trans ((parse_of_running rfl).trans (parse_of_complete rfl))))
  | number hNumeral => exact reads_number hNumeral
  | string hQuoted => exact reads_string hQuoted
  | emptyArray hBlank => exact reads_emptyArray hBlank
  | array _ ih => exact reads_array ih
  | emptyObject hBlank => exact reads_emptyObject hBlank
  | object _ ih => exact reads_object ih
  | padded hBefore _ hAfter ih => exact reads_padded hBefore hAfter ih
  | item _ ih => exact reads_item ih
  | items _ _ ih ihRest => exact reads_items ih ihRest
  | named hBefore hKey hAfter _ ih => exact reads_named hBefore hKey hAfter ih
  | member _ ih => exact reads_member ih
  | members _ _ ih ihRest => exact reads_members ih ihRest

/-- The first value of a text is read, and what follows is left alone. -/
theorem decode_of_says (hBlank : Blank before) (h : Says limit (.value value) text) (hEnds : Ends value rest) :
    decode limit (before ++ text ++ rest) = .ok (value, rest) := by
  rw [decode, List.append_assoc, parse_blank_value hBlank]
  exact reads_of_says h [] rest false (by simp) hEnds

end Reader

section Writer

variable {depth : Nat} {value : Value} {char : Char} {raw rest text key : List Char} {units : List Nat}
  {items : List Value} {members : List (List Char × Value)}

/-- The numbers are written as numbers are, and no more arrays and objects are within each
other than that. -/
inductive Fits : Nat → Value → Prop where
  | null {depth : Nat} : Fits depth .null
  | bool {depth : Nat} {value : Bool} : Fits depth (.bool value)
  | number {depth : Nat} {literal : List Char} (h : Numeral literal) : Fits depth (.number literal)
  | string {depth : Nat} {text : List Char} : Fits depth (.string text)
  | array {depth : Nat} {items : List Value} (h : ∀ item ∈ items, Fits depth item) :
      Fits (depth + 1) (.array items)
  | object {depth : Nat} {members : List (List Char × Value)} (h : ∀ member ∈ members, Fits depth member.2) :
      Fits (depth + 1) (.object members)

theorem hexDigit_digitChar {n : Nat} (h : n < 16) : HexDigit (Nat.digitChar n) n := ⟨h, List.mem_cons_self ..⟩

/-- A character is written as itself, with a backslash, or as its number. -/
theorem written_escapeChar (h : Written raw units) : Written (escapeChar char ++ raw) (char.toNat :: units) := by
  have hZero : HexDigit '0' 0 := ⟨by decide, by decide⟩
  have hTwo : HexDigit '2' 2 := ⟨by decide, by decide⟩
  unfold escapeChar
  split
  · next hMark => rcases hMark with rfl | rfl <;> exact .escape (by decide) h
  · next hMark =>
      rw [not_or] at hMark
      split
      · next hSame =>
          subst hSame
          exact .escape (by decide) h
      split
      · next hSame =>
          subst hSame
          exact .escape (by decide) h
      split
      · next hSame =>
          subst hSame
          exact .escape (by decide) h
      split
      · next hNumber =>
          have hSmall : char.toNat < 256 := by
            rcases hNumber with hControl | rfl | rfl | rfl
            · omega
            all_goals decide
          have hUnit := Written.unit hZero hZero (@hexDigit_digitChar (char.toNat / 16) (by omega))
            (@hexDigit_digitChar (char.toNat % 16) (by omega)) h
          rwa [show 4096 * 0 + 256 * 0 + 16 * (char.toNat / 16) + char.toNat % 16 = char.toNat by omega] at hUnit
      · next hPlain =>
          split
          · next hSeparator =>
              have hUnit := Written.unit hTwo hZero hTwo (@hexDigit_digitChar (char.toNat % 16) (by omega)) h
              rwa [show 4096 * 2 + 256 * 0 + 16 * 2 + char.toNat % 16 = char.toNat by omega] at hUnit
          · exact .char hMark.1 hMark.2 (Nat.not_lt.mp (not_or.mp hPlain).1) h

theorem written_escape (text : List Char) : Written (escape text) (text.map Char.toNat) := by
  induction text with
  | nil => exact .nil
  | cons char text ih => exact written_escapeChar ih

theorem means_map_toNat (text : List Char) : Means (text.map Char.toNat) text := by
  induction text with
  | nil => exact .nil
  | cons char text ih => exact .char ih

/-- What is written between quotes stands for the text itself. -/
theorem quoted_escape (text : List Char) : Quoted (escape text) text :=
  ⟨text.map Char.toNat, written_escape text, means_map_toNat text⟩

theorem blank_nil : Blank [] := fun _ hMem => absurd hMem List.not_mem_nil

theorem padded_of_value (h : Says depth (.value value) text) : Says depth (.padded value) text := by
  simpa using Says.padded blank_nil h blank_nil

theorem member_of_value (h : Says depth (.value value) text) :
    Says depth (.member key value) ('"' :: escape key ++ '"' :: ':' :: text) := by
  simpa using Says.named blank_nil (quoted_escape key) blank_nil (padded_of_value h)

theorem says_encodeItems (hSome : items ≠ [])
    (h : ∀ item ∈ items, Says depth (.value item) (encode item)) : Says depth (.items items) (encodeItems items) := by
  induction items with
  | nil => exact absurd rfl hSome
  | cons item items ih =>
      rw [List.forall_mem_cons] at h
      cases items with
      | nil => exact .item (padded_of_value h.1)
      | cons next items => exact .items (padded_of_value h.1) (ih (List.cons_ne_nil _ _) h.2)

theorem says_encodeMembers (hSome : members ≠ [])
    (h : ∀ member ∈ members, Says depth (.value member.2) (encode member.2)) :
    Says depth (.members members) (encodeMembers members) := by
  induction members with
  | nil => exact absurd rfl hSome
  | cons member members ih =>
      obtain ⟨key, value⟩ := member
      rw [List.forall_mem_cons] at h
      cases members with
      | nil => exact .member (member_of_value h.1)
      | cons next members =>
          have hMembers := Says.members (@member_of_value _ _ _ key h.1) (ih (List.cons_ne_nil _ _) h.2)
          simpa [encodeMembers] using hMembers

/-- What is written is a text of the grammar. -/
theorem says_encode (h : Fits depth value) : Says depth (.value value) (encode value) := by
  induction h with
  | null => exact .null
  | @bool depth value =>
      cases value with
      | true => exact .true
      | false => exact .false
  | number hNumeral => exact .number hNumeral
  | string => exact .string (quoted_escape _)
  | @array depth items _ ih =>
      cases items with
      | nil => exact .emptyArray blank_nil
      | cons item items => exact .array (says_encodeItems (List.cons_ne_nil _ _) ih)
  | @object depth members _ ih =>
      cases members with
      | nil => exact .emptyObject blank_nil
      | cons member members => exact .object (says_encodeMembers (List.cons_ne_nil _ _) ih)

/-- The digits of a positive number do not begin with 0. -/
theorem first_toDigits {n : Nat} (hPos : 0 < n) : ∃ first rest, Nat.toDigits 10 n = first :: rest ∧ first ≠ '0' := by
  induction n using Nat.strongRecOn with
  | _ n ih =>
      by_cases hSmall : n < 10
      · exact ⟨Nat.digitChar n, [], Nat.toDigits_of_lt_base hSmall, by simp [Nat.pos_iff_ne_zero.mp hPos]⟩
      · obtain ⟨first, rest, hDigits, hFirst⟩ := ih (n / 10) (by omega) (by omega)
        refine ⟨first, rest ++ [Nat.digitChar (n % 10)], ?_, hFirst⟩
        rw [Nat.toDigits_of_base_le (by decide) (by omega), hDigits, List.cons_append]

theorem numeral_toDigits (n : Nat) : Numeral (Nat.toDigits 10 n) := by
  refine ⟨[], Nat.toDigits 10 n, [], [], by simp, Or.inl rfl, ?_, .none, .none⟩
  rcases Nat.eq_zero_or_pos n with rfl | hPos
  · exact .zero
  · obtain ⟨first, rest, hDigits, hFirst⟩ := first_toDigits hPos
    have hAll (char : Char) (hMem : char ∈ Nat.toDigits 10 n) : char.isDigit = true :=
      Nat.isDigit_of_mem_toDigits (by decide) (by decide) hMem
    rw [hDigits] at hAll ⊢
    exact .positive hFirst ⟨List.cons_ne_nil _ _, hAll⟩

end Writer

end Json
