import TraceAudit.Text.Decimal

/-!
# Versions

A `Version` has three numbers, a pre-release text and build metadata.

* `Version.ofText?` reads the plain written form, in which `1.2` stands for `1.2.0` and a leading
  `v` is skipped;
* `Version.render` writes it;
* `Version.compare` orders versions; build metadata does not count.
-/

namespace TraceAudit

/-- A version as a component reports it. -/
structure Version where
  major : Nat
  minor : Nat
  patch : Nat
  pre : Option String
  build : Option String
deriving DecidableEq, Repr, Inhabited

namespace Version

/-! ## Reading -/

/-- A character of a pre-release or of build metadata. -/
def isIdentifierChar (c : Char) : Bool := Text.isAlphanumeric c || c == '.' || c == '-'

def isIdentifier (text : List Char) : Bool := !text.isEmpty && text.all isIdentifierChar

/-- A non-empty run of digits. -/
def isNumber (text : List Char) : Bool := !text.isEmpty && text.all Text.isDigit

/-- The number at the start of a text, and what follows it. -/
def number? (text : List Char) : Option (Nat × List Char) := do
  let n ← Decimal.u64? (text.takeWhile Text.isDigit)
  some (n, text.dropWhile Text.isDigit)

def point? : List Char → Option (List Char)
  | '.' :: rest => some rest
  | _ => none

/-- The text consists of two numbers with a point between them. -/
def isMajorMinor (text : List Char) : Bool :=
  match Text.splitOn '.' text with
  | [a, b] => isNumber a && isNumber b
  | _ => false

/-- The text before a `+` or a space, and what follows when there is one. -/
def cutBuild : List Char → List Char × Option (List Char)
  | [] => ([], none)
  | c :: rest =>
    if c = '+' ∨ c = ' ' then ([], some rest)
    else
      let (pre, build) := cutBuild rest
      (c :: pre, build)

/-- The text without the `-` or point that separates it from the numbers. -/
def dropSeparator : List Char → List Char
  | '-' :: rest => rest
  | '.' :: rest => rest
  | text => text

/-- Three numbers, then a pre-release and build metadata if there are any. -/
def ofComplete? (text : List Char) : Option Version := do
  let (major, text) ← number? text
  let (minor, text) ← number? (← point? text)
  let (patch, text) ← number? (← point? text)
  let (pre, build) := cutBuild text
  let pre := dropSeparator pre
  if build.all isIdentifier ∧ (pre = [] ∨ isIdentifier pre) then
    some
      { major
        minor
        patch
        pre := if pre = [] then none else some (String.ofList pre)
        build := build.map String.ofList }
  else none

def dropMark : List Char → List Char
  | 'v' :: rest => rest
  | text => text

def ofText? (text : List Char) : Option Version :=
  let text := dropMark text
  ofComplete? (if isMajorMinor text then text ++ ['.', '0'] else text)

/-! ## Writing -/

def render (v : Version) : String :=
  let pre := match v.pre with
    | some pre => "-" ++ pre
    | none => ""
  let build := match v.build with
    | some build => "+" ++ build
    | none => ""
  toString v.major ++ "." ++ toString v.minor ++ "." ++ toString v.patch ++ pre ++ build

/-! ## Order -/

/-- Texts by the code points of their characters, a shorter text before its extensions. -/
def compareText : List Char → List Char → Ordering
  | [], [] => .eq
  | [], _ :: _ => .lt
  | _ :: _, [] => .gt
  | a :: as, b :: bs => (Ord.compare a.toNat b.toNat).then (compareText as bs)

/-- Identifiers of a pre-release: numbers by value and before all other texts. -/
def compareIdentifier (a b : List Char) : Ordering :=
  match Decimal.u64? a, Decimal.u64? b with
  | some m, some n => Ord.compare m n
  | some _, none => .lt
  | none, some _ => .gt
  | none, none => compareText a b

/-- Lists of identifiers from the left, a shorter list before its extensions. -/
def compareIdentifiers : List (List Char) → List (List Char) → Ordering
  | [], [] => .eq
  | [], _ :: _ => .lt
  | _ :: _, [] => .gt
  | a :: as, b :: bs => (compareIdentifier a b).then (compareIdentifiers as bs)

def comparePre : Option String → Option String → Ordering
  | none, none => .eq
  | none, some _ => .gt
  | some _, none => .lt
  | some a, some b =>
    compareIdentifiers (Text.splitOn '.' a.toList) (Text.splitOn '.' b.toList)

def compare (a b : Version) : Ordering :=
  (Ord.compare a.major b.major).then <|
    (Ord.compare a.minor b.minor).then <|
      (Ord.compare a.patch b.patch).then (comparePre a.pre b.pre)

/-- The versions differ in build metadata or spelling of numbers at most. -/
def same (a b : Version) : Bool := a.compare b == .eq

end Version
end TraceAudit
