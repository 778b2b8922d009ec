import Mathlib.Data.List.Basic
import Mathlib.Tactic.Cases

/-! The JSON texts that are read and written. The reader is a machine that takes one
character after the other, with a stack of the arrays and objects that are open, and stops
behind the first value; what comes after it is left alone. -/
namespace Json

/-- A number is kept as it is written. -/
inductive Value where
  | null
  | bool (value : Bool)
  | number (literal : List Char)
  | string (text : List Char)
  | array (items : List Value)
  | object (members : List (List Char × Value))

/-- Why a text is refused: nothing but blanks, a value that does not end, a character out of
place, or more open arrays and objects than allowed. -/
inductive Fault where
  | eof
  | unexpectedEnd
  | malformed
  | depth
  deriving DecidableEq, Repr

/-- The white space that may stand between tokens. -/
def isSpace (char : Char) : Bool := char == ' ' || char == '\t' || char == '\r' || char == '\n'

section Strings

/-- How far an escape sequence has got: `hex left` is inside of `\u`, with more digits to
come after the next one. -/
inductive Escape where
  | plain
  | begun
  | hex (left : Nat)
  deriving DecidableEq, Repr

/-- The value of a hexadecimal digit, in either case. -/
def hexValue (char : Char) : Option Nat :=
  if char.isDigit then some (char.toNat - '0'.toNat)
  else if 'a'.toNat ≤ char.toNat ∧ char.toNat ≤ 'f'.toNat then some (char.toNat - 'a'.toNat + 10)
  else if 'A'.toNat ≤ char.toNat ∧ char.toNat ≤ 'F'.toNat then some (char.toNat - 'A'.toNat + 10)
  else none

/-- The next character of a string, which does not end it. -/
def Escape.next : Escape → Char → Option Escape
  | .plain, char => if char = '\\' then some .begun else if char.toNat < 0x20 then none else some .plain
  | .begun, char =>
      if char = 'u' then some (.hex 3)
      else if ['b', 'f', 'n', 'r', 't', '\\', '/', '"'].contains char then some .plain
      else none
  | .hex left, char =>
      if (hexValue char).isSome then some (match left with | 0 => .plain | left + 1 => .hex left) else none

/-- What a character stands for behind a backslash. -/
def unescape (char : Char) : Char :=
  if char = 'b' then '\x08'
  else if char = 'f' then '\x0c'
  else if char = 'n' then '\n'
  else if char = 'r' then '\r'
  else if char = 't' then '\t'
  else char

/-- The code points of a string, and the UTF-16 units of its `\u` sequences. -/
def codes : Escape → Nat → List Char → List Nat
  | _, _, [] => []
  | .plain, _, char :: rest =>
      if char = '\\' then codes .begun 0 rest else char.toNat :: codes .plain 0 rest
  | .begun, _, char :: rest =>
      if char = 'u' then codes (.hex 3) 0 rest else (unescape char).toNat :: codes .plain 0 rest
  | .hex left, unit, char :: rest =>
      match left with
      | 0 => (16 * unit + (hexValue char).getD 0) :: codes .plain 0 rest
      | left + 1 => codes (.hex left) (16 * unit + (hexValue char).getD 0) rest

/-- A code unit that is the first half of a pair. -/
def isHigh (unit : Nat) : Bool := 0xD800 ≤ unit && unit < 0xDC00

/-- A code unit that is the second half of a pair. -/
def isLow (unit : Nat) : Bool := 0xDC00 ≤ unit && unit < 0xE000

/-- A unit by itself; half of a pair is replaced. -/
def charOf (unit : Nat) : Char := if isHigh unit || isLow unit then '\uFFFD' else Char.ofNat unit

/-- Two halves of a pair are one character. -/
def join : List Nat → List Char
  | [] => []
  | [unit] => [charOf unit]
  | unit :: other :: rest =>
      if isHigh unit && isLow other then
        Char.ofNat (0x10000 + (unit - 0xD800) * 0x400 + (other - 0xDC00)) :: join rest
      else charOf unit :: join (other :: rest)

/-- The string that is meant by what stands between the quotes. -/
def unquote (raw : List Char) : List Char := join (codes .plain 0 raw)

/-- A character as the writer puts it between quotes. -/
def escapeChar (char : Char) : List Char :=
  if char = '"' ∨ char = '\\' then ['\\', char]
  else if char = '\n' then ['\\', 'n']
  else if char = '\r' then ['\\', 'r']
  else if char = '\t' then ['\\', 't']
  else if char.toNat < 0x20 ∨ char = '<' ∨ char = '>' ∨ char = '&' then
    ['\\', 'u', '0', '0', Nat.digitChar (char.toNat / 16), Nat.digitChar (char.toNat % 16)]
  else if char.toNat = 0x2028 ∨ char.toNat = 0x2029 then
    ['\\', 'u', '2', '0', '2', Nat.digitChar (char.toNat % 16)]
  else [char]

/-- The text as it is written between quotes. -/
def escape (text : List Char) : List Char := text.flatMap escapeChar

end Strings

section Numbers

/-- How much of a number has been read. -/
inductive Digits where
  | sign
  | zero
  | whole
  | point
  | fraction
  | exponent
  | exponentSign
  | power
  deriving DecidableEq, Repr

/-- The first character of a number. -/
def Digits.begin (char : Char) : Option Digits :=
  if char = '-' then some .sign
  else if char = '0' then some .zero
  else if char.isDigit then some .whole
  else none

/-- Behind the digits before the point. -/
def Digits.tail (char : Char) : Option Digits :=
  if char = '.' then some .point else if char = 'e' ∨ char = 'E' then some .exponent else none

/-- How the scanner of a number goes on, if it can. -/
def Digits.next : Digits → Char → Option Digits
  | .sign, char => if char = '0' then some .zero else if char.isDigit then some .whole else none
  | .zero, char => Digits.tail char
  | .whole, char => if char.isDigit then some .whole else Digits.tail char
  | .point, char => if char.isDigit then some .fraction else none
  | .fraction, char =>
      if char.isDigit then some .fraction else if char = 'e' ∨ char = 'E' then some .exponent else none
  | .exponent, char =>
      if char = '+' ∨ char = '-' then some .exponentSign else if char.isDigit then some .power else none
  | .exponentSign, char | .power, char => if char.isDigit then some .power else none

/-- A number can end here. -/
def Digits.final : Digits → Bool
  | .zero | .whole | .fraction | .power => true
  | _ => false

/-- What the next characters make of the number. -/
def Digits.follow : Digits → List Char → Option Digits
  | digits, [] => some digits
  | digits, char :: rest => (digits.next char).bind fun digits => digits.follow rest

/-- A number in full. -/
def Literal (literal : List Char) : Prop :=
  ∃ first rest digits, literal = first :: rest ∧
    ((Digits.begin first).bind fun digits => digits.follow rest) = some digits ∧ digits.final = true

end Numbers

section Machine

/-- What is expected next; `first` says that the array or object may still be empty. -/
inductive Mode where
  | value (first : Bool)
  | key (first : Bool)
  | colon
  | after
  | string (isKey : Bool) (raw : List Char) (escape : Escape)
  | number (raw : List Char) (digits : Digits)
  | literal (left : List Char) (value : Value)

/-- An array or object that is open, with what it has so far. -/
inductive Frame where
  | array (items : List Value)
  | object (members : List (List Char × Value)) (key : List Char)

/-- After one character; `before` is a value that has ended before it. -/
inductive Outcome where
  | running (mode : Mode) (stack : List Frame)
  | done (value : Value)
  | before (value : Value)
  | refused (fault : Fault)

/-- A value has ended. -/
def complete (value : Value) : List Frame → Outcome
  | [] => .done value
  | .array items :: stack => .running .after (.array (items ++ [value]) :: stack)
  | .object members key :: stack => .running .after (.object (members ++ [(key, value)]) [] :: stack)

/-- An array or an object is opened, unless too many are open already. -/
def open? (limit : Nat) (frame : Frame) (mode : Mode) (stack : List Frame) : Outcome :=
  if stack.length < limit then .running mode (frame :: stack) else .refused .depth

/-- Where a value is expected: a blank is skipped, and the first character of a value says
what it is. -/
def stepValue (limit : Nat) (first : Bool) (stack : List Frame) (char : Char) : Outcome :=
  if isSpace char then .running (.value first) stack
  else if char = '{' then open? limit (.object [] []) (.key true) stack
  else if char = '[' then open? limit (.array []) (.value true) stack
  else if char = '"' then .running (.string false [] .plain) stack
  else if char = 't' then .running (.literal ['r', 'u', 'e'] (.bool true)) stack
  else if char = 'f' then .running (.literal ['a', 'l', 's', 'e'] (.bool false)) stack
  else if char = 'n' then .running (.literal ['u', 'l', 'l'] .null) stack
  else
    match Digits.begin char with
    | some digits => .running (.number [char] digits) stack
    | none =>
        match stack with
        | .array items :: rest => if char = ']' ∧ first then complete (.array items) rest else .refused .malformed
        | _ => .refused .malformed

/-- Where the key of a member is expected, or the end of an empty object. -/
def stepKey (first : Bool) (stack : List Frame) (char : Char) : Outcome :=
  if isSpace char then .running (.key first) stack
  else if char = '"' then .running (.string true [] .plain) stack
  else
    match stack with
    | .object members _ :: rest => if char = '}' ∧ first then complete (.object members) rest else .refused .malformed
    | _ => .refused .malformed

/-- Between the key and the value of a member. -/
def stepColon (stack : List Frame) (char : Char) : Outcome :=
  if isSpace char then .running .colon stack
  else if char = ':' then .running (.value false) stack
  else .refused .malformed

/-- Behind a value that stands in an array or an object. -/
def stepAfter (stack : List Frame) (char : Char) : Outcome :=
  if isSpace char then .running .after stack
  else
    match stack with
    | .array items :: rest =>
        if char = ',' then .running (.value false) stack
        else if char = ']' then complete (.array items) rest
        else .refused .malformed
    | .object members _ :: rest =>
        if char = ',' then .running (.key false) stack
        else if char = '}' then complete (.object members) rest
        else .refused .malformed
    | [] => .refused .malformed

/-- The quote at the end of a string. -/
def closeString (isKey : Bool) (raw : List Char) (stack : List Frame) : Outcome :=
  if isKey then
    match stack with
    | .object members _ :: rest => .running .colon (.object members (unquote raw) :: rest)
    | _ => .refused .malformed
  else complete (.string (unquote raw)) stack

/-- Within a string: the quote ends it unless it is escaped. -/
def stepString (isKey : Bool) (raw : List Char) (escape : Escape) (stack : List Frame) (char : Char) : Outcome :=
  if escape = .plain ∧ char = '"' then closeString isKey raw stack
  else
    match escape.next char with
    | some escape => .running (.string isKey (raw ++ [char]) escape) stack
    | none => .refused .malformed

/-- The end of a number is seen at the character behind it. -/
def stepNumber (raw : List Char) (digits : Digits) (stack : List Frame) (char : Char) : Outcome :=
  match digits.next char with
  | some digits => .running (.number (raw ++ [char]) digits) stack
  | none =>
      if digits.final then
        match complete (.number raw) stack with
        | .running _ stack => stepAfter stack char
        | _ => .before (.number raw)
      else .refused .malformed

/-- Within one of the words `true`, `false` and `null`. -/
def stepLiteral (left : List Char) (value : Value) (stack : List Frame) (char : Char) : Outcome :=
  match left with
  | [] => .refused .malformed
  | expected :: left =>
      if char = expected then
        if left = [] then complete value stack else .running (.literal left value) stack
      else .refused .malformed

/-- One character, by what the scanner expects. -/
def step (limit : Nat) (mode : Mode) (stack : List Frame) (char : Char) : Outcome :=
  match mode with
  | .value first => stepValue limit first stack char
  | .key first => stepKey first stack char
  | .colon => stepColon stack char
  | .after => stepAfter stack char
  | .string isKey raw escape => stepString isKey raw escape stack char
  | .number raw digits => stepNumber raw digits stack char
  | .literal left value => stepLiteral left value stack char

/-- The text is over. -/
def atEnd : Mode → List Frame → Except Fault Value
  | .value _, [] => .error .eof
  | .number raw digits, [] => if digits.final then .ok (.number raw) else .error .unexpectedEnd
  | _, _ => .error .unexpectedEnd

/-- The first value of a text, and what is left of the text. -/
def parse (limit : Nat) : Mode → List Frame → List Char → Except Fault (Value × List Char)
  | mode, stack, [] => (atEnd mode stack).map fun value => (value, [])
  | mode, stack, char :: rest =>
      match step limit mode stack char with
      | .running mode stack => parse limit mode stack rest
      | .done value => .ok (value, rest)
      | .before value => .ok (value, char :: rest)
      | .refused fault => .error fault

/-- The first value of a text, and what stands behind it. -/
def decode (limit : Nat) (text : List Char) : Except Fault (Value × List Char) :=
  parse limit (.value false) [] text

end Machine

section Writer

mutual

/-- How a value is written, with no blanks and with the escapes of `escapeChar` only. -/
def encode : Value → List Char
  | .null => ['n', 'u', 'l', 'l']
  | .bool true => ['t', 'r', 'u', 'e']
  | .bool false => ['f', 'a', 'l', 's', 'e']
  | .number literal => literal
  | .string text => '"' :: escape text ++ ['"']
  | .array items => '[' :: encodeItems items ++ [']']
  | .object members => '{' :: encodeMembers members ++ ['}']

/-- What stands between the brackets. -/
def encodeItems : List Value → List Char
  | [] => []
  | [item] => encode item
  | item :: rest => encode item ++ ',' :: encodeItems rest

/-- The members of an object as they are written, with commas in between. -/
def encodeMembers : List (List Char × Value) → List Char
  | [] => []
  | [(key, value)] => '"' :: escape key ++ '"' :: ':' :: encode value
  | (key, value) :: rest => '"' :: escape key ++ '"' :: ':' :: encode value ++ ',' :: encodeMembers rest

end

end Writer

end Json
