import Mathlib.Data.List.Forall2
import Mathlib.Tactic.IntervalCases
import TraceAudit.Json.Printer
import TraceAudit.Json.Tree

/-!
# Reading what was written

The machine that takes JSON texts apart, on the compact texts of values:

* `Reader.Reads` says that a text is read as a tree wherever a value may start, and
  `Reader.ReadsInside` that it is where a container goes on or ends behind it, which is all that
  can be said of a numeral;
* `Reader.reads_str`, `Reader.readsInside_nat`, `Reader.reads_arr`, `Reader.reads_obj` and
  `Reader.reads_null` are the values of which calls are made, `JsonTree.read_of_reads` is the whole
  text.
-/

namespace TraceAudit

/-- The numeral that a printed number is read as. -/
def Numeral.ofNat (n : Nat) : Numeral := ⟨false, n.repr.toList, [], none⟩

namespace Reader

/-! ## Where values stand -/

/-- A value may start here. -/
inductive Expects : Mode → Prop
  | value : Expects .value
  | firstItem : Expects .firstItem

/-- The text is read as the tree wherever a value may start. -/
def Reads (text : List Char) (tree : JsonTree) : Prop :=
  ∀ frames mode, Expects mode → text.foldlM step ⟨frames, mode⟩ = complete frames tree

/-- A comma, or the end of a container. -/
def closes (c : Char) : Bool := c == ',' || c == ']' || c == '\x7d'

/-- The text is read as the tree where a container goes on or ends behind it. -/
def ReadsInside (text : List Char) (tree : JsonTree) : Prop :=
  ∀ frames mode r c, Expects mode → complete frames tree = some r → closes c = true →
    (text ++ [c]).foldlM step ⟨frames, mode⟩ = r.after? c

theorem closes_cases {c : Char} (h : closes c = true) : c = ',' ∨ c = ']' ∨ c = '\x7d' := by
  simpa [closes, or_assoc] using h

theorem step_complete {frames : List Frame} {tree : JsonTree} {r : Reader} {c : Char}
    (h : complete frames tree = some r) (hc : closes c = true) : r.step c = r.after? c := by
  have hspace : isSpace c = false := by
    rcases closes_cases hc with rfl | rfl | rfl <;> rfl
  cases frames with
  | nil =>
    cases h
    simp [step, after?, hspace]
  | cons frame rest =>
    cases frame <;> cases h <;> rfl

theorem Reads.inside {text : List Char} {tree : JsonTree} (h : Reads text tree) :
    ReadsInside text tree := by
  intro frames mode r c hmode hr hc
  rw [List.foldlM_append, h frames mode hmode, hr]
  simp [step_complete hr hc]

/-- A value starts alike in front of an array and in its middle. -/
theorem step_expects {mode : Mode} (h : Expects mode) (frames : List Frame) {c : Char}
    (hspace : isSpace c = false) (hend : c ≠ ']') : step ⟨frames, mode⟩ c = begin? frames c := by
  cases h with
  | value => simp [step, hspace]
  | firstItem =>
    simp only [step, hspace]
    split
    · contradiction
    · split
      · exact absurd rfl hend
      · rfl

theorem reads_null : Reads (Json.compactText .null) .null := by
  intro frames mode hmode
  rw [Json.compactText, List.foldlM_cons, step_expects hmode frames rfl (by decide)]
  simp [begin?, step, Text.isDigit]

/-! ## Numerals -/

theorem foldlM_repr (n : Nat) (frames : List Frame) {mode : Mode} (h : Expects mode) :
    n.repr.toList.foldlM step ⟨frames, mode⟩ =
      some ⟨frames, .numeral (.ofNat n) (if n = 0 then .zero else .whole)⟩ := by
  rw [Numeral.ofNat, Nat.toList_repr]
  -- The digits in front of the last one are those of a smaller number.
  induction n using Nat.base_induction 10 (by decide) with
  | single m hm =>
    rw [Nat.toDigits_of_lt_base hm, List.foldlM_cons]
    interval_cases m <;> rw [step_expects h frames rfl (by decide)] <;> rfl
  | digit m k hk hm ih =>
    have hdigit : Text.isDigit k.digitChar = true := by
      interval_cases k <;> rfl
    have hnumber : 10 * m + k ≠ 0 := by omega
    rw [← Nat.toDigits_append_toDigits (by decide) hm hk, List.foldlM_append, ih,
      Nat.toDigits_of_lt_base hk, if_neg hm.ne', if_neg hnumber]
    simp [step, Numeral.extend?, hdigit]

theorem extend?_closes (numeral : Numeral) {phase : Phase} {c : Char} (hc : closes c = true)
    (hphase : phase.complete = true) : numeral.extend? phase c = none := by
  rcases closes_cases hc with rfl | rfl | rfl <;> cases phase <;> rfl

theorem readsInside_nat (n : Nat) :
    ReadsInside (Json.compactText (Json.nat n)) (.number (.ofNat n)) := by
  intro frames mode r c hmode hr hc
  have htext : Json.compactText (Json.nat n) = n.repr.toList := rfl
  have hcomplete : (if n = 0 then Phase.zero else Phase.whole).complete = true := by
    split <;> rfl
  -- Only the character behind the digits tells that there are no more of them.
  rw [htext, List.foldlM_append, foldlM_repr n frames hmode]
  simp [step, extend?_closes _ hc hcomplete, hcomplete, hr, -Nat.toList_repr]

/-! ## Strings -/

/-- A string being read of which only its characters are known so far. -/
def spelled (frames : List Frame) (isKey : Bool) (chars : List Char) : Reader :=
  ⟨frames, .text isKey ⟨chars, none, false⟩ .none⟩

theorem hexValue?_hexDigit {n : Nat} (h : n < 16) : hexValue? (Json.hexDigit n) = some n := by
  interval_cases n <;> rfl

/-- How a character is written between quotes. -/
inductive Escapes (c : Char) : List Char → Prop
  | letter {letter : Char} : Escape.letter? letter = some c → Escapes c ['\\', letter]
  | digits : c.toNat < 0x20 →
      Escapes c ['\\', 'u', '0', '0', Json.hexDigit (c.toNat / 16), Json.hexDigit (c.toNat % 16)]
  | plain : c ≠ '"' → c ≠ '\\' → 0x20 ≤ c.toNat → Escapes c [c]

theorem escapes_escapeChar (c : Char) : Escapes c (Json.escapeChar c) := by
  unfold Json.escapeChar
  split_ifs with hquote hbackslash hb hf hn hr ht hcontrol
  · subst hquote
    exact .letter rfl
  · subst hbackslash
    exact .letter rfl
  · subst hb
    exact .letter rfl
  · subst hf
    exact .letter rfl
  · subst hn
    exact .letter rfl
  · subst hr
    exact .letter rfl
  · subst ht
    exact .letter rfl
  · exact .digits hcontrol
  · exact .plain hquote hbackslash (Nat.not_lt.1 hcontrol)

theorem foldlM_escapeChar (frames : List Frame) (isKey : Bool) (chars : List Char) (c : Char) :
    (Json.escapeChar c).foldlM step (spelled frames isKey chars) =
      some (spelled frames isKey (c :: chars)) := by
  have hescapes := escapes_escapeChar c
  generalize Json.escapeChar c = escaped at hescapes
  cases hescapes with
  | @letter letter hletter =>
    have hunit : letter ≠ 'u' := by
      rintro rfl
      cases hletter
    simp [spelled, step, text?, hunit, hletter, Fragment.push]
  | digits hcontrol =>
    have hzeros : ['\\', 'u', '0', '0'].foldlM step (spelled frames isKey chars) =
        some ⟨frames, .text isKey ⟨chars, none, false⟩ (.unit 2 0)⟩ := rfl
    have hhigh := hexValue?_hexDigit (n := c.toNat / 16) (by omega)
    have hlow := hexValue?_hexDigit (n := c.toNat % 16) (by omega)
    have hcode : 16 * (c.toNat / 16) + c.toNat % 16 = c.toNat := by omega
    -- A control character is far from the surrogates, so its four digits stand for itself.
    have hunit : Fragment.pushUnit ⟨chars, none, false⟩ c.toNat = ⟨c :: chars, none, false⟩ := by
      rw [Fragment.pushUnit, if_neg (by omega), if_neg (by omega), Char.ofNat_toNat]
    change (['\\', 'u', '0', '0'] ++ [Json.hexDigit _, Json.hexDigit _]).foldlM _ _ = _
    rw [List.foldlM_append, hzeros]
    simp [spelled, step, text?, hhigh, hlow, hcode, hunit]
  | plain hquote hbackslash hcontrol =>
    simp [spelled, step, text?, hquote, hbackslash, Nat.not_lt.2 hcontrol, Fragment.push]

theorem foldlM_escaped (frames : List Frame) (isKey : Bool) (s chars : List Char) :
    (s.flatMap Json.escapeChar).foldlM step (spelled frames isKey chars) =
      some (spelled frames isKey (s.reverse ++ chars)) := by
  induction s generalizing chars with
  | nil => rfl
  | cons c rest ih =>
    rw [List.flatMap_cons, List.foldlM_append, foldlM_escapeChar]
    simp [ih]

/-- What stands between quotes is read as the string, or as the key. -/
theorem foldlM_quoted (frames : List Frame) (isKey : Bool) (s : String) :
    (s.toList.flatMap Json.escapeChar ++ ['"']).foldlM step (spelled frames isKey []) =
      if isKey then some ⟨frames, .colon (some s)⟩ else complete frames (.string (some s)) := by
  rw [List.foldlM_append, foldlM_escaped]
  simp [spelled, step, text?, Fragment.text?]

theorem reads_str (s : String) : Reads (Json.compactText (.str s)) (.string (some s)) := by
  intro frames mode hmode
  have hopen : begin? frames '"' = some (spelled frames false []) := rfl
  rw [Json.compactText, Json.quote, List.cons_append, List.foldlM_cons,
    step_expects hmode frames rfl (by decide), hopen]
  exact foldlM_quoted frames false s

/-! ## Arrays -/

/-- The trees are those of values, one by one. -/
abbrev AllRead (items : List Json) (trees : List JsonTree) : Prop :=
  List.Forall₂ (fun v tree => ReadsInside (Json.compactText v) tree) items trees

theorem allRead_map {α : Type} {write : α → Json} {tree : α → JsonTree}
    (h : ∀ a, ReadsInside (write a).compactText (tree a)) (items : List α) :
    AllRead (items.map write) (items.map tree) :=
  List.forall₂_map_left_iff.2 (List.forall₂_map_right_iff.2 (List.forall₂_same.2 fun a _ => h a))

theorem foldlM_items {v : Json} {tree : JsonTree} {items : List Json} {trees : List JsonTree}
    (hv : ReadsInside (Json.compactText v) tree) (hitems : AllRead items trees)
    (frames : List Frame) (done : List JsonTree) {mode : Mode} (hmode : Expects mode) :
    (Json.compactItems (v :: items) ++ [']']).foldlM step ⟨.items done :: frames, mode⟩ =
      complete frames (.array (done.reverse ++ tree :: trees)) := by
  have hnext : complete (.items done :: frames) tree =
      some ⟨.items (tree :: done) :: frames, .separator⟩ := rfl
  -- The induction is on the items behind a first one, which decide how that one ends.
  induction hitems generalizing v tree done mode with
  | nil =>
    rw [Json.compactItems, hv _ _ _ ']' hmode hnext rfl]
    simp [after?, isSpace]
  | @cons w tree' items trees hw hrest ih =>
    have hcomma : after? ⟨.items (tree :: done) :: frames, .separator⟩ ',' =
        some ⟨.items (tree :: done) :: frames, .value⟩ := rfl
    have htext : Json.compactItems (v :: w :: items) ++ [']'] =
        (Json.compactText v ++ [',']) ++ (Json.compactItems (w :: items) ++ [']']) := by
      simp [Json.compactItems]
    have hlater := ih hw (tree :: done) .value rfl
    rw [htext, List.foldlM_append, hv _ _ _ ',' hmode hnext rfl, hcomma]
    simpa using hlater

theorem reads_arr {items : List Json} {trees : List JsonTree} (h : AllRead items trees) :
    Reads (Json.compactText (.arr items)) (.array trees) := by
  intro frames mode hmode
  have hopen : begin? frames '[' = some ⟨.items [] :: frames, .firstItem⟩ := rfl
  rw [Json.compactText, List.cons_append, List.foldlM_cons,
    step_expects hmode frames rfl (by decide), hopen]
  cases h with
  | nil => simp [Json.compactItems, step, isSpace]
  | cons hv hrest => exact foldlM_items hv hrest frames [] .firstItem

/-! ## Objects -/

/-- The key and the value of a member are read. -/
def ReadsMember (m : String × Json) (t : Option String × JsonTree) : Prop :=
  t.1 = some m.1 ∧ ReadsInside (Json.compactText m.2) t.2

/-- A member that is left out where there is no value. -/
theorem readsMember_optional {α : Type} {write : α → String × Json}
    {tree : α → Option String × JsonTree} {value : Option α}
    (h : ∀ a, ReadsMember (write a) (tree a)) :
    List.Forall₂ ReadsMember (value.map write).toList (value.map tree).toList := by
  cases value with
  | none => exact .nil
  | some a => exact .cons (h a) .nil

/-- A key may start here. -/
inductive ExpectsKey : Mode → Prop
  | firstKey : ExpectsKey .firstKey
  | nextKey : ExpectsKey .nextKey

theorem foldlM_key {mode : Mode} (h : ExpectsKey mode) (frames : List Frame)
    (done : List (Option String × JsonTree)) (key : String) :
    (Json.quote key ++ [':']).foldlM step ⟨.members done :: frames, mode⟩ =
      some ⟨.entry done (some key) :: frames, .value⟩ := by
  have hopen : step ⟨.members done :: frames, mode⟩ '"' =
      some (spelled (.members done :: frames) true []) := by
    cases h <;> rfl
  have hquoted := foldlM_quoted (.members done :: frames) true key
  have htext : Json.quote key ++ [':'] =
      '"' :: ((key.toList.flatMap Json.escapeChar ++ ['"']) ++ [':']) := rfl
  rw [if_pos rfl] at hquoted
  rw [htext, List.foldlM_cons, hopen, Option.bind_eq_bind, Option.bind_some, List.foldlM_append,
    hquoted]
  rfl

/-- A member and what separates it from the next one, or ends the object. -/
theorem foldlM_member {key : String} {v : Json} {tree : JsonTree}
    (hv : ReadsInside (Json.compactText v) tree) {mode : Mode} (hmode : ExpectsKey mode)
    (frames : List Frame) (done : List (Option String × JsonTree)) {c : Char}
    (hc : closes c = true) :
    ((Json.quote key ++ [':']) ++ (Json.compactText v ++ [c])).foldlM step
        ⟨.members done :: frames, mode⟩ =
      after? ⟨.members ((some key, tree) :: done) :: frames, .separator⟩ c := by
  rw [List.foldlM_append, foldlM_key hmode, Option.bind_eq_bind, Option.bind_some]
  exact hv _ _ _ c .value rfl hc

theorem foldlM_members {m : String × Json} {t : Option String × JsonTree}
    {members : List (String × Json)} {trees : List (Option String × JsonTree)}
    (hm : ReadsMember m t) (hmembers : List.Forall₂ ReadsMember members trees)
    (frames : List Frame) (done : List (Option String × JsonTree)) {mode : Mode}
    (hmode : ExpectsKey mode) :
    (Json.compactMembers (m :: members) ++ ['\x7d']).foldlM step ⟨.members done :: frames, mode⟩ =
      complete frames (.object (done.reverse ++ t :: trees)) := by
  induction hmembers generalizing m t done mode with
  | nil =>
    rcases m with ⟨key, v⟩
    rcases t with ⟨_, tree⟩
    rcases hm with ⟨rfl, hv⟩
    have htext : Json.compactMembers [(key, v)] ++ ['\x7d'] =
        (Json.quote key ++ [':']) ++ (Json.compactText v ++ ['\x7d']) := by
      simp [Json.compactMembers]
    rw [htext, foldlM_member hv hmode frames done rfl]
    simp [after?, isSpace]
  | @cons n t' members trees hn hrest ih =>
    rcases m with ⟨key, v⟩
    rcases t with ⟨_, tree⟩
    rcases hm with ⟨rfl, hv⟩
    have htext : Json.compactMembers ((key, v) :: n :: members) ++ ['\x7d'] =
        ((Json.quote key ++ [':']) ++ (Json.compactText v ++ [','])) ++
          (Json.compactMembers (n :: members) ++ ['\x7d']) := by
      simp [Json.compactMembers]
    have hcomma : after? ⟨.members ((some key, tree) :: done) :: frames, .separator⟩ ',' =
        some ⟨.members ((some key, tree) :: done) :: frames, .nextKey⟩ := rfl
    have hlater := ih hn ((some key, tree) :: done) .nextKey
    rw [htext, List.foldlM_append, foldlM_member hv hmode frames done rfl, hcomma]
    simpa using hlater

theorem reads_obj {members : List (String × Json)} {trees : List (Option String × JsonTree)}
    (h : List.Forall₂ ReadsMember members trees) :
    Reads (Json.compactText (.obj members)) (.object trees) := by
  intro frames mode hmode
  have hopen : begin? frames '\x7b' = some ⟨.members [] :: frames, .firstKey⟩ := rfl
  rw [Json.compactText, List.cons_append, List.foldlM_cons,
    step_expects hmode frames rfl (by decide), hopen]
  cases h with
  | nil => simp [Json.compactMembers, step]
  | cons hm hrest => exact foldlM_members hm hrest frames [] .firstKey

end Reader

theorem JsonTree.read_of_reads {text : List Char} {tree : JsonTree} (h : Reader.Reads text tree) :
    read text = some tree := by
  rw [read, Reader.start, h [] .value .value]
  rfl

end TraceAudit
