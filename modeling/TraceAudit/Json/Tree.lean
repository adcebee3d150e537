import TraceAudit.Json.Numeral

/-!
# JSON texts

A `JsonTree` is a JSON text taken apart but not yet evaluated: numerals as written, members in
order of appearance and possibly with repeated keys, and a string whose escapes name half a
surrogate pair kept as `none`. `JsonTree.read` builds it with a machine that takes one character
at a time:

* `Reader` is the machine's state: the containers that are open, and what may come next;
* `Reader.step` takes a character, or refuses it;
* `Reader.finish` gives the tree once the text is complete.

White space is space, tab, line feed and carriage return only, and a string may not hold a raw
character below `U+0020`.
-/

namespace TraceAudit

/-- A JSON text taken apart. -/
inductive JsonTree where
  | null
  | bool (value : Bool)
  | number (numeral : Numeral)
  | string (value : Option String)
  | array (items : List JsonTree)
  | object (members : List (Option String × JsonTree))
deriving Inhabited

/-! ## Strings -/

/-- A string being read: its characters so far, last first; half of a surrogate pair that waits for
the other half; and whether some half stood alone. -/
structure Fragment where
  chars : List Char
  high : Option Nat
  broken : Bool
deriving Inhabited

namespace Fragment

def empty : Fragment := ⟨[], none, false⟩

/-- Take a character that stands for itself. -/
def push (f : Fragment) (c : Char) : Fragment :=
  match f.high with
  | none => { f with chars := c :: f.chars }
  | some _ => { f with high := none, broken := true }

/-- Take a 16-bit unit that an escape names: two halves in a row make one character. -/
def pushUnit (f : Fragment) (unit : Nat) : Fragment :=
  match f.high with
  | some high =>
    if 0xDC00 ≤ unit ∧ unit ≤ 0xDFFF then
      let code := 0x10000 + (high - 0xD800) * 0x400 + (unit - 0xDC00)
      { f with chars := Char.ofNat code :: f.chars, high := none }
    else { f with high := none, broken := true }
  | none =>
    if 0xD800 ≤ unit ∧ unit ≤ 0xDBFF then { f with high := some unit }
    else if 0xDC00 ≤ unit ∧ unit ≤ 0xDFFF then { f with broken := true }
    else { f with chars := Char.ofNat unit :: f.chars }

/-- The text read, unless half of a surrogate pair stood alone. -/
def text? (f : Fragment) : Option String :=
  if f.broken || f.high.isSome then none else some (String.ofList f.chars.reverse)

end Fragment

/-- Where a string stands: between characters, after a backslash, or after `\u` and some of its
four hexadecimal digits. -/
inductive Escape where
  | none
  | backslash
  | unit (seen : Nat) (value : Nat)
deriving DecidableEq, Repr

/-- The character that a one-letter escape stands for. -/
def Escape.letter? : Char → Option Char
  | '"' => some '"'
  | '\\' => some '\\'
  | '/' => some '/'
  | 'b' => some '\x08'
  | 'f' => some '\x0c'
  | 'n' => some '\n'
  | 'r' => some '\r'
  | 't' => some '\t'
  | _ => Option.none

def hexValue? (c : Char) : Option Nat :=
  if '0' ≤ c ∧ c ≤ '9' then some (c.toNat - '0'.toNat)
  else if 'a' ≤ c ∧ c ≤ 'f' then some (c.toNat - 'a'.toNat + 10)
  else if 'A' ≤ c ∧ c ≤ 'F' then some (c.toNat - 'A'.toNat + 10)
  else none

/-! ## Numerals -/

/-- Where a numeral stands: after its sign, its lone zero, a digit, the point, a digit of the
fraction, the exponent mark, the exponent's sign, a digit of the exponent. -/
inductive Phase where
  | sign
  | zero
  | whole
  | point
  | fraction
  | mark
  | markSign
  | power
deriving DecidableEq, Repr

namespace Phase

def complete : Phase → Bool
  | .zero | .whole | .fraction | .power => true
  | _ => false

end Phase

namespace Numeral

def pushPower (n : Numeral) (c : Char) : Numeral :=
  match n.power with
  | none => { n with power := some (false, [c]) }
  | some (sign, digits) => { n with power := some (sign, digits ++ [c]) }

/-- Extend a numeral by one character; nothing when the character does not belong to it. -/
def extend? (n : Numeral) (phase : Phase) (c : Char) : Option (Numeral × Phase) :=
  let digit := Text.isDigit c
  match phase with
  | .sign =>
    if c = '0' then some ({ n with whole := ['0'] }, .zero)
    else if digit then some ({ n with whole := [c] }, .whole)
    else none
  | .zero => pointOrMark
  | .whole => if digit then some ({ n with whole := n.whole ++ [c] }, .whole) else pointOrMark
  | .point | .fraction =>
    if digit then some ({ n with fraction := n.fraction ++ [c] }, .fraction)
    else if phase = .fraction then markOnly
    else none
  | .mark =>
    if c = '+' then some ({ n with power := some (false, []) }, .markSign)
    else if c = '-' then some ({ n with power := some (true, []) }, .markSign)
    else if digit then some (n.pushPower c, .power)
    else none
  | .markSign | .power => if digit then some (n.pushPower c, .power) else none
where
  /-- The exponent mark. -/
  markOnly : Option (Numeral × Phase) :=
    if c = 'e' ∨ c = 'E' then some (n, .mark) else none
  /-- The point or the exponent mark. -/
  pointOrMark : Option (Numeral × Phase) :=
    if c = '.' then some (n, .point) else markOnly

end Numeral

/-! ## The machine -/

/-- A container that is open: an array, an object between members, or an object whose last key
waits for its value. What is complete stands last first. -/
inductive Frame where
  | items (done : List JsonTree)
  | members (done : List (Option String × JsonTree))
  | entry (done : List (Option String × JsonTree)) (key : Option String)
deriving Inhabited

/-- What may come next. -/
inductive Mode where
  | value
  | firstItem
  | firstKey
  | nextKey
  | colon (key : Option String)
  | separator
  | text (isKey : Bool) (fragment : Fragment) (escape : Escape)
  | numeral (numeral : Numeral) (phase : Phase)
  | word (rest : List Char) (value : JsonTree)
  | finished (tree : JsonTree)
deriving Inhabited

/-- The state of reading: the open containers, innermost first, and what may come next. -/
structure Reader where
  frames : List Frame
  mode : Mode
deriving Inhabited

namespace Reader

def start : Reader := ⟨[], .value⟩

/-- White space between the parts of a JSON text. -/
def isSpace (c : Char) : Bool := c == ' ' || c == '\t' || c == '\n' || c == '\r'

/-- A value is complete; it goes into the innermost open container. -/
def complete (frames : List Frame) (tree : JsonTree) : Option Reader :=
  match frames with
  | [] => some ⟨[], .finished tree⟩
  | .items done :: rest => some ⟨.items (tree :: done) :: rest, .separator⟩
  | .entry done key :: rest => some ⟨.members ((key, tree) :: done) :: rest, .separator⟩
  | .members _ :: _ => none

def begin? (frames : List Frame) (c : Char) : Option Reader :=
  if c = '[' then some ⟨.items [] :: frames, .firstItem⟩
  else if c = '\x7b' then some ⟨.members [] :: frames, .firstKey⟩
  else if c = '"' then some ⟨frames, .text false Fragment.empty .none⟩
  else if c = '-' then some ⟨frames, .numeral ⟨true, [], [], none⟩ .sign⟩
  else if c = '0' then some ⟨frames, .numeral ⟨false, ['0'], [], none⟩ .zero⟩
  else if Text.isDigit c then some ⟨frames, .numeral ⟨false, [c], [], none⟩ .whole⟩
  else if c = 't' then some ⟨frames, .word ['r', 'u', 'e'] (.bool true)⟩
  else if c = 'f' then some ⟨frames, .word ['a', 'l', 's', 'e'] (.bool false)⟩
  else if c = 'n' then some ⟨frames, .word ['u', 'l', 'l'] .null⟩
  else none

/-- A character after a complete value: white space, a comma or the end of the container. -/
def after? (r : Reader) (c : Char) : Option Reader :=
  if isSpace c then some r
  else
    match r.frames, c with
    | .items done :: rest, ',' => some ⟨.items done :: rest, .value⟩
    | .items done :: rest, ']' => complete rest (.array done.reverse)
    | .members done :: rest, ',' => some ⟨.members done :: rest, .nextKey⟩
    | .members done :: rest, '\x7d' => complete rest (.object done.reverse)
    | _, _ => none

def key? (r : Reader) (c : Char) : Option Reader :=
  if isSpace c then some r
  else if c = '"' then some ⟨r.frames, .text true Fragment.empty .none⟩
  else none

def text? (frames : List Frame) (isKey : Bool) (f : Fragment) (escape : Escape) (c : Char) :
    Option Reader :=
  match escape with
  | .none =>
    if c = '"' then
      if isKey then some ⟨frames, .colon f.text?⟩ else complete frames (.string f.text?)
    else if c = '\\' then some ⟨frames, .text isKey f .backslash⟩
    else if c.toNat < 0x20 then none
    else some ⟨frames, .text isKey (f.push c) .none⟩
  | .backslash =>
    if c = 'u' then some ⟨frames, .text isKey f (.unit 0 0)⟩
    else do
      let d ← Escape.letter? c
      some ⟨frames, .text isKey (f.push d) .none⟩
  | .unit seen value => do
    let h ← hexValue? c
    let value := 16 * value + h
    if seen = 3 then some ⟨frames, .text isKey (f.pushUnit value) .none⟩
    else some ⟨frames, .text isKey f (.unit (seen + 1) value)⟩

def step (r : Reader) (c : Char) : Option Reader :=
  match r.mode with
  | .value => if isSpace c then some r else begin? r.frames c
  | .firstItem =>
    if isSpace c then some r
    else
      match r.frames, c with
      | .items done :: rest, ']' => complete rest (.array done.reverse)
      | frames, _ => begin? frames c
  | .firstKey =>
    match r.frames, c with
    | .members done :: rest, '\x7d' => complete rest (.object done.reverse)
    | _, _ => key? r c
  | .nextKey => key? r c
  | .colon key =>
    if isSpace c then some r
    else
      match r.frames, c with
      | .members done :: rest, ':' => some ⟨.entry done key :: rest, .value⟩
      | _, _ => none
  | .separator => after? r c
  | .text isKey fragment escape => text? r.frames isKey fragment escape c
  | .numeral numeral phase =>
    match numeral.extend? phase c with
    | some (numeral, phase) => some ⟨r.frames, .numeral numeral phase⟩
    | none =>
      if phase.complete then do
        let r ← complete r.frames (.number numeral)
        after? r c
      else none
  | .word rest value =>
    match rest with
    | [d] => if c = d then complete r.frames value else none
    | d :: rest => if c = d then some ⟨r.frames, .word rest value⟩ else none
    | [] => none
  | .finished _ => if isSpace c then some r else none

def finish (r : Reader) : Option JsonTree :=
  match r.frames, r.mode with
  | [], .finished tree => some tree
  | [], .numeral numeral phase => if phase.complete then some (.number numeral) else none
  | _, _ => none

end Reader

namespace JsonTree

/-- Take a JSON text apart; nothing when it is not one. -/
def read (text : List Char) : Option JsonTree :=
  (text.foldlM Reader.step Reader.start).bind Reader.finish

mutual
def depth : JsonTree → Nat
  | .array items => depthOfItems items + 1
  | .object members => depthOfMembers members + 1
  | _ => 0

def depthOfItems : List JsonTree → Nat
  | [] => 0
  | item :: rest => max (depth item) (depthOfItems rest)

def depthOfMembers : List (Option String × JsonTree) → Nat
  | [] => 0
  | (_, value) :: rest => max (depth value) (depthOfMembers rest)
end

mutual
/-- The value of a text that was taken apart; nothing when a number overflows or a string holds
half a surrogate pair. -/
def value? : JsonTree → Option Json
  | .null => some .null
  | .bool b => some (.bool b)
  | .number n => n.value?.map .num
  | .string s => s.map .str
  | .array items => (valueOfItems? items).map .arr
  | .object members => (valueOfMembers? members).map fun ms => .obj (Members.ofList ms)

def valueOfItems? : List JsonTree → Option (List Json)
  | [] => some []
  | item :: rest => do
    let v ← value? item
    let vs ← valueOfItems? rest
    some (v :: vs)

def valueOfMembers? : List (Option String × JsonTree) → Option (List (String × Json))
  | [] => some []
  | (key, value) :: rest => do
    let k ← key
    let v ← value? value
    let vs ← valueOfMembers? rest
    some ((k, v) :: vs)
end

end JsonTree

namespace Json

/-- The deepest nesting of arrays and objects that is read. -/
def maxDepth : Nat := 127

def ofText? (text : List Char) : Option Json := do
  let tree ← JsonTree.read text
  if tree.depth ≤ maxDepth then tree.value? else none

def ofBytes? (bytes : Bytes) : Option Json := do
  let text ← Utf8.decode bytes
  ofText? text

end Json
end TraceAudit
