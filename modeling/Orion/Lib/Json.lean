import Mathlib.Data.List.Sort

/-!
# JSON as Go's `encoding/json` reads and writes it

What a Go program gets when it decodes JSON into `interface{}` values with
`Decoder.UseNumber` (so a number keeps its text, a `json.Number`), and what `json.Marshal`
writes for a string.

`decode` is `Decoder.Decode`: whitespace, one value, and whatever follows the value left unread.
`unmarshal` is `json.Unmarshal`: the input must be one value and whitespace. The grammar is
RFC 8259's, as Go's scanner checks it. Input bytes are read as UTF-8 the way `utf8.DecodeRune`
reads them (`decodeUTF8`): a byte that does not start a well-formed sequence is U+FFFD; such a
character, like any character outside ASCII, is a syntax error outside a string and kept inside
one, as Go keeps it. A `\u` escape of a lone surrogate is U+FFFD too. An object decodes into a map,
here its members in one iteration order, a name given twice keeping its last value.

`quote` is the encoder's `string` with HTML escaping on, as `json.Marshal` writes every string:
`"`, `\`, the control characters, `<`, `>`, `&`, U+2028 and U+2029 are escaped, nothing else is.
-/

namespace GoJson

/-- A decoded value: `nil`, `bool`, `json.Number`, `string`, `[]interface{}` or
`map[string]interface{}`. -/
inductive Value where
  | null
  | bool (b : Bool)
  | number (text : String)
  | string (s : String)
  | array (items : List Value)
  | object (members : List (String × Value))
  deriving Repr, Inhabited

/-! ### UTF-8 -/

/-- `utf8.RuneError`, U+FFFD. -/
def replacementChar : Char := Char.ofNat 0xFFFD

/-- A continuation byte, `10xxxxxx`. -/
def isTail (b : UInt8) : Bool := 0x80 ≤ b && b ≤ 0xBF

/-- The bits a continuation byte carries. -/
def tailBits (b : UInt8) : Nat := (b &&& 0x3F).toNat

/-- `utf8.DecodeRune` on a byte `b0` followed by `rest`: the character a well-formed sequence
encodes and the bytes after it, or U+FFFD and `rest`. -/
def decodeRune (b0 : UInt8) (rest : List UInt8) : Char × List UInt8 :=
  if b0 < 0x80 then (Char.ofNat b0.toNat, rest)
  else
    match rest with
    | b1 :: rest1 =>
      if 0xC2 ≤ b0 && b0 ≤ 0xDF && isTail b1 then
        (Char.ofNat ((b0 &&& 0x1F).toNat * 64 + tailBits b1), rest1)
      else
        match rest1 with
        | b2 :: rest2 =>
          -- the second byte's range depends on the first: no overlong form, no surrogate
          let lo : UInt8 := if b0 = 0xE0 then 0xA0 else 0x80
          let hi : UInt8 := if b0 = 0xED then 0x9F else 0xBF
          if 0xE0 ≤ b0 && b0 ≤ 0xEF && lo ≤ b1 && b1 ≤ hi && isTail b2 then
            (Char.ofNat ((b0 &&& 0x0F).toNat * 4096 + tailBits b1 * 64 + tailBits b2), rest2)
          else
            match rest2 with
            | b3 :: rest3 =>
              let lo4 : UInt8 := if b0 = 0xF0 then 0x90 else 0x80
              let hi4 : UInt8 := if b0 = 0xF4 then 0x8F else 0xBF
              if 0xF0 ≤ b0 && b0 ≤ 0xF4 && lo4 ≤ b1 && b1 ≤ hi4 && isTail b2 && isTail b3 then
                (Char.ofNat ((b0 &&& 0x07).toNat * 262144 + tailBits b1 * 4096 + tailBits b2 * 64 +
                  tailBits b3), rest3)
              else (replacementChar, rest)
            | [] => (replacementChar, rest)
        | [] => (replacementChar, rest)
    | [] => (replacementChar, rest)

/-- Bytes read as `utf8.DecodeRune` reads them, again and again; `fuel` bounds the number of
characters. -/
def decodeUTF8Loop : Nat → List UInt8 → List Char
  | 0, _ => []
  | _ + 1, [] => []
  | fuel + 1, b0 :: rest =>
    let (c, rest') := decodeRune b0 rest
    c :: decodeUTF8Loop fuel rest'

/-- The characters of a byte string; each takes at least one byte. -/
def decodeUTF8 (bs : List UInt8) : List Char := decodeUTF8Loop bs.length bs

/-! ### The decoder -/

/-- JSON's whitespace. -/
def isSpace (c : Char) : Bool := c = ' ' || c = '\t' || c = '\n' || c = '\r'

/-- The input after its leading whitespace. -/
def skipSpace : List Char → List Char
  | c :: cs => if isSpace c then skipSpace cs else c :: cs
  | [] => []

/-- The value of a hexadecimal digit. -/
def hexValue (c : Char) : Option Nat :=
  if '0' ≤ c && c ≤ '9' then some (c.toNat - '0'.toNat)
  else if 'a' ≤ c && c ≤ 'f' then some (c.toNat - 'a'.toNat + 10)
  else if 'A' ≤ c && c ≤ 'F' then some (c.toNat - 'A'.toNat + 10)
  else none

/-- `getu4`: the four hexadecimal digits after `\u`, and the rest. -/
def getu4 : List Char → Option (Nat × List Char)
  | a :: b :: c :: d :: rest => do
    pure ((((← hexValue a) * 16 + (← hexValue b)) * 16 + (← hexValue c)) * 16 + (← hexValue d), rest)
  | _ => none

/-- A code point of a UTF-16 surrogate. -/
def isSurrogate (r : Nat) : Bool := 0xD800 ≤ r && r < 0xE000

/-- The body of a string after its opening quote: the characters, with escapes replaced, and
the input after the closing quote; `fuel` bounds the number of characters. A control character
or a bad escape is an error. -/
def parseString : Nat → List Char → List Char → Option (String × List Char)
  | 0, _, _ => none
  | _ + 1, _, [] => none
  | _ + 1, acc, '"' :: rest => some (String.ofList acc.reverse, rest)
  | fuel + 1, acc, '\\' :: c :: rest =>
    match c with
    | '"' => parseString fuel ('"' :: acc) rest
    | '\\' => parseString fuel ('\\' :: acc) rest
    | '/' => parseString fuel ('/' :: acc) rest
    | 'b' => parseString fuel ('\x08' :: acc) rest
    | 'f' => parseString fuel ('\x0c' :: acc) rest
    | 'n' => parseString fuel ('\n' :: acc) rest
    | 'r' => parseString fuel ('\r' :: acc) rest
    | 't' => parseString fuel ('\t' :: acc) rest
    | 'u' =>
      match getu4 rest with
      | none => none
      | some (r, rest') =>
        if isSurrogate r then
          -- a high surrogate followed by the escape of a low one is one character
          match rest' with
          | '\\' :: 'u' :: rest'' =>
            match getu4 rest'' with
            | some (r2, rest''') =>
              if 0xD800 ≤ r && r < 0xDC00 && 0xDC00 ≤ r2 && r2 < 0xE000 then
                parseString fuel (Char.ofNat (0x10000 + (r - 0xD800) * 1024 + (r2 - 0xDC00)) :: acc) rest'''
              else parseString fuel (replacementChar :: acc) rest'
            | none => parseString fuel (replacementChar :: acc) rest'
          | _ => parseString fuel (replacementChar :: acc) rest'
        else parseString fuel (Char.ofNat r :: acc) rest'
    | _ => none
  | fuel + 1, acc, c :: rest => if c.toNat < 0x20 then none else parseString fuel (c :: acc) rest

/-- The decimal digits at the front of the input. -/
def spanDigits (cs : List Char) : List Char × List Char := cs.span Char.isDigit

/-- The integer part of a number: `0`, or a digit run that does not start with `0`. -/
def parseIntPart : List Char → Option (List Char × List Char)
  | '0' :: rest => some (['0'], rest)
  | c :: rest =>
    if '1' ≤ c && c ≤ '9' then some (c :: (spanDigits rest).1, (spanDigits rest).2) else none
  | [] => none

/-- An optional fraction: `.` and at least one digit. -/
def parseFraction : List Char → Option (List Char × List Char)
  | '.' :: rest =>
    let (ds, rest) := spanDigits rest
    if ds.isEmpty then none else some ('.' :: ds, rest)
  | cs => some ([], cs)

/-- An optional exponent: `e` or `E`, an optional sign, and at least one digit. -/
def parseExponent : List Char → Option (List Char × List Char)
  | e :: rest =>
    if e = 'e' || e = 'E' then
      let (sign, rest) : List Char × List Char :=
        match rest with
        | '+' :: r => (['+'], r)
        | '-' :: r => (['-'], r)
        | r => ([], r)
      let (ds, rest) := spanDigits rest
      if ds.isEmpty then none else some (e :: sign ++ ds, rest)
    else some ([], e :: rest)
  | [] => some ([], [])

/-- A number: an optional `-`, the integer part, an optional fraction and exponent. The text
of the number and the rest. -/
def parseNumber (cs : List Char) : Option (String × List Char) := do
  let (sign, cs) : List Char × List Char :=
    match cs with
    | '-' :: rest => (['-'], rest)
    | _ => ([], cs)
  let (intPart, cs) ← parseIntPart cs
  let (frac, cs) ← parseFraction cs
  let (exp, cs) ← parseExponent cs
  pure (String.ofList (sign ++ intPart ++ frac ++ exp), cs)

/-- Put a member into a map: a name already there gets the new value. -/
def setMember (members : List (String × Value)) (name : String) (v : Value) :
    List (String × Value) :=
  members.filter (fun m => m.1 != name) ++ [(name, v)]

/-- The elements of an array after `[`, each read by `parse`; `fuel` bounds their number. -/
def parseElements (parse : List Char → Option (Value × List Char)) :
    Nat → List Value → List Char → Option (List Value × List Char)
  | 0, _, _ => none
  | fuel + 1, acc, cs => do
    let (v, cs) ← parse cs
    match skipSpace cs with
    | ',' :: rest => parseElements parse fuel (v :: acc) rest
    | ']' :: rest => pure ((v :: acc).reverse, rest)
    | _ => none

/-- The members of an object after `{`, each value read by `parse`; `fuel` bounds their number. -/
def parseMembers (parse : List Char → Option (Value × List Char)) :
    Nat → List (String × Value) → List Char → Option (List (String × Value) × List Char)
  | 0, _, _ => none
  | fuel + 1, acc, cs => do
    let (name, cs) ← match skipSpace cs with
      | '"' :: rest => parseString rest.length [] rest
      | _ => none
    let cs ← match skipSpace cs with
      | ':' :: rest => some rest
      | _ => none
    let (v, cs) ← parse cs
    match skipSpace cs with
    | ',' :: rest => parseMembers parse fuel (setMember acc name v) rest
    | '\x7d' :: rest => pure (setMember acc name v, rest)
    | _ => none

/-- One value after optional whitespace, and the rest of the input; `fuel` bounds the nesting. -/
def parseValue : Nat → List Char → Option (Value × List Char)
  | 0, _ => none
  | fuel + 1, cs =>
    match skipSpace cs with
    | 'n' :: 'u' :: 'l' :: 'l' :: rest => some (.null, rest)
    | 't' :: 'r' :: 'u' :: 'e' :: rest => some (.bool true, rest)
    | 'f' :: 'a' :: 'l' :: 's' :: 'e' :: rest => some (.bool false, rest)
    | '"' :: rest => (parseString rest.length [] rest).map fun (s, rest) => (.string s, rest)
    | '[' :: rest =>
      match skipSpace rest with
      | ']' :: rest' => some (.array [], rest')
      | _ => (parseElements (parseValue fuel) rest.length [] rest).map
          fun (vs, rest) => (.array vs, rest)
    | '\x7b' :: rest =>
      match skipSpace rest with
      | '\x7d' :: rest' => some (.object [], rest')
      | _ => (parseMembers (parseValue fuel) rest.length [] rest).map
          fun (ms, rest) => (.object ms, rest)
    | cs => (parseNumber cs).map fun (t, rest) => (.number t, rest)

/-- `Decoder.Decode` into an `interface{}` with `UseNumber`: the first value of the input, or an
error. Every value consumes a character, so the input's length bounds the nesting. -/
def decode (input : List UInt8) : Option Value :=
  let cs := decodeUTF8 input
  (parseValue (cs.length + 1) cs).map Prod.fst

/-- `json.Unmarshal` into an `interface{}`: the input must be one value and whitespace. -/
def unmarshal (input : List UInt8) : Option Value :=
  let cs := decodeUTF8 input
  match parseValue (cs.length + 1) cs with
  | some (v, rest) => if skipSpace rest = [] then some v else none
  | none => none

/-- A member of an object by name. -/
def Value.member? (v : Value) (name : String) : Option Value :=
  match v with
  | .object members => members.lookup name
  | _ => none

/-! ### The encoder -/

/-- `hex`. -/
def hexDigit (n : Nat) : Char := "0123456789abcdef".toList.getD n '0'

/-- One character of a string as `encodeState.string` writes it with HTML escaping. -/
def escapeChar (c : Char) : List Char :=
  if c = '"' then ['\\', '"']
  else if c = '\\' then ['\\', '\\']
  else if c = '\n' then ['\\', 'n']
  else if c = '\r' then ['\\', 'r']
  else if c = '\t' then ['\\', 't']
  else if c.toNat < 0x20 || c = '<' || c = '>' || c = '&' then
    ['\\', 'u', '0', '0', hexDigit (c.toNat / 16), hexDigit (c.toNat % 16)]
  else if c.toNat = 0x2028 || c.toNat = 0x2029 then
    ['\\', 'u', '2', '0', '2', hexDigit (c.toNat % 16)]
  else [c]

/-- A string as `json.Marshal` writes it, quotes included. -/
def quote (s : String) : String :=
  String.ofList ('"' :: s.toList.flatMap escapeChar ++ ['"'])

/-- A map of strings to numbers as `json.Marshal` writes it: members sorted by name, `null` for
a `nil` map. -/
def marshalNumberMap (m : Option (List (String × Int))) : String :=
  match m with
  | none => "null"
  | some members =>
    let sorted := members.insertionSort fun a b => a.1 ≤ b.1
    "\x7b" ++ ",".intercalate (sorted.map fun (k, n) => quote k ++ ":" ++ toString n) ++ "\x7d"

/-! ### What the encoder writes, the decoder reads back

A quoted string is read back by `parseString` whatever follows it, so no string's text is a
prefix of another's: two texts built from quoted strings and fixed separators are equal only
when their parts are. The same holds of an integer's decimal text followed by a character that
is neither a digit nor `-`. -/

end GoJson
