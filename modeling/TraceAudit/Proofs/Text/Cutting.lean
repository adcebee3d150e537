import Mathlib.Data.List.Infix
import TraceAudit.Text.Split

/-!
# Cutting text

* `Text.splitOn_append_cons` and `Text.splitOnce_append` cut at a separator between two texts,
  `Text.splitOn_ended` cuts texts each of which is ended by it, and `Text.splitOn_join` cuts what
  was joined; `Text.lines_ended` gets lines back;
* `Text.cutAt_eq_none` says when a pattern is not found, `Text.cutAt_append_left` and
  `Text.cutAt_append_self` where it is found;
* `Text.Removal` describes `Text.removeAll` by cases, and by induction along it: what does not hold
  the pattern stays (`Text.removeAll_eq_self`), and so do a separator that is not part of the
  pattern (`Text.removeAll_append_cons`) and a start without its first character
  (`Text.removeAll_append_left`), while the pattern itself goes (`Text.removeAll_append_pattern`);
* `Text.trim_eq_self` and `Text.dropEndWhile_eq_self` are about texts with nothing to trim,
  `Text.trim_append` about a start with nothing to trim.
-/

namespace TraceAudit.Text

/-! ## Separators -/

theorem splitOn_ne_nil (sep : Char) (text : List Char) : splitOn sep text ≠ [] := by
  induction text with
  | nil => simp [splitOn]
  | cons c rest ih =>
    rw [splitOn]
    split
    · simp
    · cases hrest : splitOn sep rest <;> simp

/-- A separator between two texts separates their pieces. -/
theorem splitOn_append_cons (sep : Char) (a b : List Char) :
    splitOn sep (a ++ sep :: b) = splitOn sep a ++ splitOn sep b := by
  induction a with
  | nil =>
    simp [splitOn]
  | cons c rest ih =>
    rw [List.cons_append, splitOn, splitOn, ih]
    by_cases hc : c = sep
    · simp [hc]
    · cases hrest : splitOn sep rest with
      | nil => exact absurd hrest (splitOn_ne_nil sep rest)
      | cons piece pieces => simp [hc]

theorem splitOn_of_not_mem {sep : Char} {text : List Char} (h : sep ∉ text) :
    splitOn sep text = [text] := by
  induction text with
  | nil => rfl
  | cons c rest ih =>
    have hc : c ≠ sep := fun heq => h (by simp [heq])
    rw [splitOn, if_neg hc, ih fun hmem => h (by simp [hmem])]

theorem notMem_of_mem_splitOn {sep : Char} {text piece : List Char} (h : piece ∈ splitOn sep text) :
    sep ∉ piece := by
  induction text generalizing piece with
  | nil => simp_all [splitOn]
  | cons c rest ih =>
    rw [splitOn] at h
    split at h
    · rcases List.mem_cons.1 h with rfl | h
      · exact List.not_mem_nil
      · exact ih h
    · rename_i hc
      cases hrest : splitOn sep rest with
      | nil => exact absurd hrest (splitOn_ne_nil sep rest)
      | cons first pieces =>
        rw [hrest] at h ih
        rcases List.mem_cons.1 h with rfl | h
        · have hfirst : sep ∉ first := ih List.mem_cons_self
          simp [Ne.symm hc, hfirst]
        · exact ih (List.mem_cons_of_mem _ h)

/-- A text without the separator goes on with the first piece behind it. -/
theorem splitOn_append_left {sep : Char} {front : List Char} (h : sep ∉ front) (text : List Char) :
    splitOn sep (front ++ text) =
      (front ++ (splitOn sep text).headD []) :: (splitOn sep text).tail := by
  induction front with
  | nil =>
    cases htext : splitOn sep text with
    | nil => exact absurd htext (splitOn_ne_nil sep text)
    | cons first pieces => simp [htext]
  | cons c front ih =>
    have hc : c ≠ sep := fun heq => h (by simp [heq])
    rw [List.cons_append, splitOn, if_neg hc, ih fun hmem => h (List.mem_cons_of_mem c hmem)]
    rfl

/-- Where each text of a list is ended by the separator, the pieces are those of the texts. -/
theorem splitOn_ended (sep : Char) (texts : List (List Char)) :
    splitOn sep (texts.flatMap (· ++ [sep])) = texts.flatMap (splitOn sep) ++ [[]] := by
  induction texts with
  | nil => rfl
  | cons text rest ih =>
    rw [List.flatMap_cons, List.append_assoc, List.singleton_append, splitOn_append_cons, ih,
      List.flatMap_cons, List.append_assoc]

theorem splitOnce_append {sep : Char} {before after : List Char} (h : sep ∉ before) :
    splitOnce sep (before ++ sep :: after) = some (before, after) := by
  induction before with
  | nil => simp [splitOnce]
  | cons c rest ih =>
    have hne : c ≠ sep := fun heq => h (by simp [heq])
    have hrest : sep ∉ rest := fun hmem => h (List.mem_cons_of_mem c hmem)
    simp [splitOnce, hne, ih hrest]

/-! ## Lines -/

theorem notMem_of_mem_lines {text line : List Char} (h : line ∈ lines text) : '\n' ∉ line := by
  -- A line is a piece, perhaps without its last character.
  suffices hpiece : ∃ piece ∈ splitOn '\n' text, line ⊆ piece by
    rcases hpiece with ⟨piece, hpiece, hsubset⟩
    exact fun hmem => notMem_of_mem_splitOn hpiece (hsubset hmem)
  have hended : ∀ line ∈ (splitOn '\n' text).dropLast.map fun line =>
      if line.getLast? = some '\r' then line.dropLast else line,
      ∃ piece ∈ splitOn '\n' text, line ⊆ piece := by
    intro line hline
    rcases List.mem_map.1 hline with ⟨piece, hpiece, rfl⟩
    refine ⟨piece, List.mem_of_mem_dropLast hpiece, ?_⟩
    split
    · exact List.dropLast_subset piece
    · exact fun c hc => hc
  simp only [lines] at h
  split at h
  · rename_i c last hlast
    rcases List.mem_append.1 h with h | h
    · exact hended line h
    · rw [List.mem_singleton.1 h]
      exact ⟨c :: last, List.mem_of_getLast? hlast, fun x hx => hx⟩
  · exact hended line h

theorem lines_of_notMem {text : List Char} (hne : text ≠ []) (h : '\n' ∉ text) :
    lines text = [text] := by
  rw [lines, splitOn_of_not_mem h]
  cases text with
  | nil => exact absurd rfl hne
  | cons c rest => rfl

/-- Texts without line ends, each of them ended by a line feed, are the lines. -/
theorem lines_ended {texts : List (List Char)} (h : ∀ text ∈ texts, '\n' ∉ text ∧ '\r' ∉ text) :
    lines (texts.flatMap (· ++ ['\n'])) = texts := by
  have hpieces : texts.flatMap (splitOn '\n') = texts := by
    have hpiece : texts.flatMap (splitOn '\n') = texts.flatMap ([·]) :=
      List.flatMap_congr fun text htext => splitOn_of_not_mem (h text htext).1
    rw [hpiece, List.flatMap_singleton']
  have hchomp : (texts.map fun line =>
      if line.getLast? = some '\r' then line.dropLast else line) = texts := by
    conv_rhs => rw [← List.map_id texts]
    refine List.map_congr_left fun line hline => if_neg fun hlast => ?_
    exact (h line hline).2 (List.mem_of_getLast? hlast)
  rw [lines, splitOn_ended, hpieces]
  simpa using hchomp

/-! ## Joined texts -/

theorem toList_join_cons {sep piece : String} {pieces : List String} (h : pieces ≠ []) :
    (join sep (piece :: pieces)).toList =
      piece.toList ++ (sep.toList ++ (join sep pieces).toList) := by
  cases pieces with
  | nil => exact absurd rfl h
  | cons next pieces => simp [join]

theorem join_ne_nil {sep piece : String} (h : piece.toList ≠ []) (pieces : List String) :
    (join sep (piece :: pieces)).toList ≠ [] := by
  cases pieces with
  | nil => exact h
  | cons next pieces =>
    rw [toList_join_cons (List.cons_ne_nil next pieces)]
    exact List.append_ne_nil_of_left_ne_nil h _

theorem mem_join {sep : String} {pieces : List String} {c : Char}
    (h : c ∈ (join sep pieces).toList) :
    c ∈ sep.toList ∨ ∃ piece ∈ pieces, c ∈ piece.toList := by
  induction pieces with
  | nil => cases h
  | cons piece pieces ih =>
    by_cases hlast : pieces = []
    · subst hlast
      exact Or.inr ⟨piece, by simp, h⟩
    · rw [toList_join_cons hlast, List.mem_append, List.mem_append] at h
      rcases h with hpiece | hsep | hrest
      · exact Or.inr ⟨piece, by simp, hpiece⟩
      · exact Or.inl hsep
      · rcases ih hrest with hsep | ⟨own, hown, hc⟩
        · exact Or.inl hsep
        · exact Or.inr ⟨own, List.mem_cons_of_mem piece hown, hc⟩

/-- What is joined with a separator is cut into the same pieces. -/
theorem splitOn_join {sep : Char} {pieces : List String} (hne : pieces ≠ [])
    (h : ∀ piece ∈ pieces, sep ∉ piece.toList) :
    splitOn sep (join (String.singleton sep) pieces).toList = pieces.map String.toList := by
  induction pieces with
  | nil => exact absurd rfl hne
  | cons piece pieces ih =>
    have hpiece := splitOn_of_not_mem (h piece (by simp))
    by_cases hlast : pieces = []
    · subst hlast
      exact hpiece
    · have hrest := ih hlast fun own hown => h own (List.mem_cons_of_mem piece hown)
      rw [toList_join_cons hlast, String.toList_singleton, List.singleton_append,
        splitOn_append_cons, hpiece, hrest]
      rfl

/-! ## Patterns -/

theorem isPrefixOf?_eq_none {pattern text : List Char} :
    pattern.isPrefixOf? text = none ↔ ¬pattern <+: text := by
  constructor
  · rintro hnone ⟨rest, hrest⟩
    rw [List.isPrefixOf?_eq_some_iff_append_eq.2 hrest] at hnone
    cases hnone
  · intro hprefix
    refine Option.eq_none_iff_forall_ne_some.2 fun rest hsome => ?_
    exact hprefix ⟨rest, List.isPrefixOf?_eq_some_iff_append_eq.1 hsome⟩

theorem isSuffixOf?_eq_none {pattern text : List Char} :
    pattern.isSuffixOf? text = none ↔ ¬pattern <:+ text := by
  constructor
  · rintro hnone ⟨front, hfront⟩
    rw [List.isSuffixOf?_eq_some_iff_append_eq.2 hfront] at hnone
    cases hnone
  · intro hsuffix
    refine Option.eq_none_iff_forall_ne_some.2 fun front hsome => ?_
    exact hsuffix ⟨front, List.isSuffixOf?_eq_some_iff_append_eq.1 hsome⟩

/-- A separator that is not part of the pattern does not complete it. -/
theorem prefix_of_prefix_append_cons {pattern text rest : List Char} {sep : Char}
    (hsep : sep ∉ pattern) (h : pattern <+: text ++ sep :: rest) : pattern <+: text := by
  rcases List.prefix_or_prefix_of_prefix h (List.prefix_append text (sep :: rest)) with hle | hge
  · exact hle
  · rcases hge with ⟨more, rfl⟩
    cases more with
    | nil => simp
    | cons c more =>
      have hc : c = sep := (List.cons_prefix_cons.1 ((List.prefix_append_right_inj text).1 h)).1
      exact absurd (by simp [hc]) hsep

/-- A separator that is not part of the end of a text stands in front of the end. -/
theorem suffix_of_suffix_append_cons {ending text rest : List Char} {sep : Char}
    (hsep : sep ∉ ending) (h : ending <:+ text ++ sep :: rest) : ending <:+ rest := by
  have hreverse : ending.reverse <+: rest.reverse ++ sep :: text.reverse := by
    simpa using List.reverse_prefix.2 h
  have hnot : sep ∉ ending.reverse := by simpa using hsep
  exact List.reverse_prefix.1 (prefix_of_prefix_append_cons hnot hreverse)

/-- A pattern is not found in the texts that it is not part of. -/
theorem cutAt_eq_none {pattern text : List Char} :
    cutAt pattern text = none ↔ ¬pattern <:+: text := by
  induction text with
  | nil => simp [cutAt]
  | cons c rest ih =>
    rw [cutAt, List.infix_cons_iff, not_or, ← ih, ← isPrefixOf?_eq_none]
    cases hstart : pattern.isPrefixOf? (c :: rest) with
    | some after => simp
    | none => simp

theorem cutAt_cons {pattern : List Char} {c : Char} {rest : List Char} (h : ¬pattern <+: c :: rest) :
    cutAt pattern (c :: rest) =
      (cutAt pattern rest).map fun (before, after) => (c :: before, after) := by
  rw [cutAt, isPrefixOf?_eq_none.2 h]

theorem cutAt_append_self {pattern : List Char} (hne : pattern ≠ []) (rest : List Char) :
    cutAt pattern (pattern ++ rest) = some ([], rest) := by
  cases pattern with
  | nil => exact absurd rfl hne
  | cons p ps =>
    have hstart : (p :: ps).isPrefixOf? (p :: (ps ++ rest)) = some rest :=
      List.isPrefixOf?_eq_some_iff_append_eq.2 rfl
    rw [List.cons_append, cutAt, hstart]

/-- Without the first character of the pattern, a start is in front of the first occurrence. -/
theorem cutAt_append_left {p : Char} {ps front : List Char} (h : p ∉ front) (rest : List Char) :
    cutAt (p :: ps) (front ++ rest) =
      (cutAt (p :: ps) rest).map fun (before, after) => (front ++ before, after) := by
  induction front with
  | nil => simp
  | cons c front ih =>
    have hc : ¬p :: ps <+: c :: (front ++ rest) := by
      intro hprefix
      have heq : p = c := (List.cons_prefix_cons.1 hprefix).1
      exact h (by simp [heq])
    rw [List.cons_append, cutAt_cons hc, ih fun hmem => h (List.mem_cons_of_mem c hmem),
      Option.map_map]
    rfl

/-! ## Removing a pattern -/

/-- `result` is `text` without the occurrences of `pattern`, leftmost first. -/
inductive Removal (pattern : List Char) : List Char → List Char → Prop
  | nil : Removal pattern [] []
  | keep {c : Char} {text result : List Char} :
      ¬pattern <+: c :: text → Removal pattern text result →
        Removal pattern (c :: text) (c :: result)
  | drop {text result : List Char} :
      Removal pattern text result → Removal pattern (pattern ++ text) result

theorem removeAfter_eq (pattern : List Char) (skip : Nat) (text : List Char) :
    removeAfter pattern skip text = removeAll pattern (text.drop skip) := by
  induction text generalizing skip with
  | nil => cases skip <;> rfl
  | cons c rest ih =>
    cases skip with
    | zero => rfl
    | succ skip => exact ih skip

variable {pattern : List Char}

theorem removeAll_cons {c : Char} {rest : List Char} (h : ¬pattern <+: c :: rest) :
    removeAll pattern (c :: rest) = c :: removeAll pattern rest := by
  have hstart : pattern.isPrefixOf (c :: rest) = false := by
    simpa [← List.isPrefixOf_iff_prefix] using h
  simp [removeAll, removeAfter, hstart]

theorem removeAll_append_self (h : pattern ≠ []) (rest : List Char) :
    removeAll pattern (pattern ++ rest) = removeAll pattern rest := by
  cases pattern with
  | nil => exact absurd rfl h
  | cons p ps =>
    have hstart : (p :: ps).isPrefixOf (p :: (ps ++ rest)) = true :=
      List.isPrefixOf_iff_prefix.2 (List.prefix_append (p :: ps) rest)
    rw [removeAll, List.cons_append, removeAfter, if_pos hstart, removeAfter_eq]
    simp

/-- Removing a pattern goes through the text as `Removal` says. -/
theorem removal_removeAll (h : pattern ≠ []) (text : List Char) :
    Removal pattern text (removeAll pattern text) := by
  -- By the length of the text: behind an occurrence the rest is not the tail of a list.
  induction hlength : text.length using Nat.strong_induction_on generalizing text with
  | _ n ih =>
    by_cases hstart : pattern <+: text
    · rcases hstart with ⟨rest, rfl⟩
      have hpos : 0 < pattern.length := List.length_pos_of_ne_nil h
      have hshorter : rest.length < n := by
        rw [List.length_append] at hlength
        omega
      rw [removeAll_append_self h]
      exact .drop (ih rest.length hshorter rest rfl)
    · cases text with
      | nil => exact .nil
      | cons c rest =>
        have hshorter : rest.length < n := by
          rw [List.length_cons] at hlength
          omega
        rw [removeAll_cons hstart]
        exact .keep hstart (ih rest.length hshorter rest rfl)

/-- There is no other way to remove the pattern. -/
theorem Removal.eq_removeAll {text result : List Char} (h : Removal pattern text result)
    (hne : pattern ≠ []) : result = removeAll pattern text := by
  induction h with
  | nil => rfl
  | keep hstart _ ih => rw [removeAll_cons hstart, ih]
  | drop _ ih => rw [removeAll_append_self hne, ih]

theorem Removal.eq_self {text result : List Char} (h : Removal pattern text result)
    (habsent : ¬pattern <:+: text) : result = text := by
  induction h with
  | nil => rfl
  | keep _ _ ih => rw [ih fun hrest => habsent (List.infix_cons hrest)]
  | drop _ _ => exact absurd (List.prefix_append _ _).isInfix habsent

/-- A text that the pattern is not part of stays. -/
theorem removeAll_eq_self (h : pattern ≠ []) {text : List Char} (habsent : ¬pattern <:+: text) :
    removeAll pattern text = text :=
  (removal_removeAll h text).eq_self habsent

theorem Removal.sublist {text result : List Char} (h : Removal pattern text result) :
    result.Sublist text := by
  induction h with
  | nil => exact List.Sublist.refl []
  | keep _ _ ih => exact ih.cons_cons _
  | drop _ ih => exact ih.trans (List.sublist_append_right _ _)

theorem removeAll_sublist (h : pattern ≠ []) (text : List Char) :
    (removeAll pattern text).Sublist text :=
  (removal_removeAll h text).sublist

/-- A text that the pattern is part of loses at least the characters of the pattern. -/
theorem Removal.countP_add_le {text result : List Char} (h : Removal pattern text result)
    (hpresent : pattern <:+: text) (hne : pattern ≠ []) (p : Char → Bool) :
    result.countP p + pattern.countP p ≤ text.countP p := by
  induction h with
  | nil => exact absurd (List.infix_nil.1 hpresent) hne
  | @keep c text result hstart _ ih =>
    have hrest := ih ((List.infix_cons_iff.1 hpresent).resolve_left hstart)
    rw [List.countP_cons, List.countP_cons]
    omega
  | drop hrest _ =>
    have hle := hrest.sublist.countP_le (p := p)
    rw [List.countP_append]
    omega

theorem Removal.append_left {text result : List Char} (h : Removal pattern text result)
    {start : List Char} (hstart : ∀ c ∈ start, ∀ rest, ¬pattern <+: c :: rest) :
    Removal pattern (start ++ text) (start ++ result) := by
  induction start with
  | nil => exact h
  | cons c start ih =>
    refine .keep (hstart c (by simp) _) (ih fun d hd => ?_)
    exact hstart d (List.mem_cons_of_mem c hd)

/-- A start without the first character of the pattern stays. -/
theorem removeAll_append_left {p : Char} {ps start : List Char} (h : p ∉ start)
    (text : List Char) :
    removeAll (p :: ps) (start ++ text) = start ++ removeAll (p :: ps) text := by
  have hne : p :: ps ≠ [] := List.cons_ne_nil p ps
  have hstart : ∀ c ∈ start, ∀ rest, ¬p :: ps <+: c :: rest := by
    intro c hc rest hprefix
    have heq : p = c := (List.cons_prefix_cons.1 hprefix).1
    exact h (heq ▸ hc)
  exact (((removal_removeAll hne text).append_left hstart).eq_removeAll hne).symm

theorem Removal.append_cons {sep : Char} {a b a' b' : List Char} (hsep : sep ∉ pattern)
    (hne : pattern ≠ []) (ha : Removal pattern a a') (hb : Removal pattern b b') :
    Removal pattern (a ++ sep :: b) (a' ++ sep :: b') := by
  induction ha with
  | nil =>
    refine .keep (fun hstart => hne ?_) hb
    have hempty : pattern <+: [] := prefix_of_prefix_append_cons hsep hstart
    exact List.prefix_nil.1 hempty
  | keep hstart _ ih =>
    -- An occurrence does not reach over the separator.
    refine .keep (fun hlonger => hstart ?_) ih
    exact prefix_of_prefix_append_cons hsep hlonger
  | drop _ ih =>
    rw [List.append_assoc]
    exact .drop ih

/-- A separator that is not part of the pattern separates what is removed. -/
theorem removeAll_append_cons {sep : Char} (hsep : sep ∉ pattern) (hne : pattern ≠ [])
    (a b : List Char) :
    removeAll pattern (a ++ sep :: b) = removeAll pattern a ++ sep :: removeAll pattern b :=
  ((Removal.append_cons hsep hne (removal_removeAll hne a) (removal_removeAll hne b)).eq_removeAll
    hne).symm

/-- A text whose first character occurs nowhere else in it does not overlap with itself. -/
theorem Removal.append_self {p : Char} {ps a b a' b' : List Char} (h : p ∉ ps)
    (ha : Removal (p :: ps) a a') (hb : Removal (p :: ps) b b') :
    Removal (p :: ps) (a ++ (p :: ps ++ b)) (a' ++ b') := by
  induction ha with
  | nil => exact .drop hb
  | @keep c text _ hstart _ ih =>
    refine .keep (fun hlonger => hstart ?_) ih
    -- An occurrence over the end of the text would hold the first character a second time.
    rcases List.prefix_or_prefix_of_prefix hlonger
      (List.prefix_append (c :: text) (p :: ps ++ b)) with hle | ⟨more, hmore⟩
    · exact hle
    · cases more with
      | nil => exact ⟨[], by simpa using hmore.symm⟩
      | cons d more =>
        have hover : c :: text ++ d :: more <+: c :: text ++ (p :: ps ++ b) := by
          rw [hmore]
          exact hlonger
        have hd : d = p := (List.cons_prefix_cons.1 ((List.prefix_append_right_inj _).1 hover)).1
        have htail : ps = text ++ d :: more := (List.cons.inj hmore).2.symm
        exact absurd (by simp [htail, hd]) h
  | drop _ ih =>
    rw [List.append_assoc]
    exact .drop ih

theorem removeAll_append_pattern {p : Char} {ps : List Char} (h : p ∉ ps) (text : List Char) :
    removeAll (p :: ps) (text ++ p :: ps) = removeAll (p :: ps) text := by
  have hne : p :: ps ≠ [] := List.cons_ne_nil p ps
  have hremoval := Removal.append_self h (removal_removeAll hne text) .nil
  simpa using (hremoval.eq_removeAll hne).symm

/-! ## Ends -/

theorem getLast?_of_suffix {ending text : List Char} (h : ending <:+ text) (hne : ending ≠ []) :
    text.getLast? = ending.getLast? := by
  rcases h with ⟨front, rfl⟩
  exact List.getLast?_append_of_ne_nil front hne

/-- What is left does not end with a character to drop. -/
theorem getLast?_dropEndWhile {drop : Char → Bool} (text : List Char) :
    ∀ c ∈ (dropEndWhile drop text).getLast?, drop c = false := by
  intro c hc
  rw [dropEndWhile, List.getLast?_reverse] at hc
  have hhead := List.head?_dropWhile_not drop text.reverse
  rw [hc] at hhead
  simpa using hhead

theorem dropEndWhile_eq_self {drop : Char → Bool} {text : List Char}
    (h : ∀ c ∈ text.getLast?, drop c = false) : dropEndWhile drop text = text := by
  rcases List.eq_nil_or_concat text with rfl | ⟨front, last, rfl⟩
  · rfl
  · have hlast : drop last = false := h last (by simp)
    simp [dropEndWhile, hlast]

/-- What is dropped of a single character is that character, again and again. -/
theorem exists_dropEndWhile_append (c : Char) (text : List Char) :
    ∃ n, text = dropEndWhile (· == c) text ++ List.replicate n c := by
  refine ⟨(text.reverse.takeWhile (· == c)).length, ?_⟩
  have hdropped : text.reverse.takeWhile (· == c) =
      List.replicate (text.reverse.takeWhile (· == c)).length c :=
    List.eq_replicate_of_mem fun d hd => by
      simpa using List.all_eq_true.1 (List.all_takeWhile (p := (· == c))) d hd
  have hparts := List.takeWhile_append_dropWhile (p := (· == c)) (l := text.reverse)
  rw [hdropped] at hparts
  simpa [dropEndWhile] using (congrArg List.reverse hparts).symm

theorem dropEndWhile_append {drop : Char → Bool} {front : List Char}
    (h : ∀ c ∈ front.getLast?, drop c = false) (rest : List Char) :
    dropEndWhile drop (front ++ rest) = front ++ dropEndWhile drop rest := by
  have hfront : front.reverse.dropWhile drop = front.reverse := by
    simpa [dropEndWhile] using congrArg List.reverse (dropEndWhile_eq_self h)
  rw [dropEndWhile, List.reverse_append, List.dropWhile_append]
  split
  · rename_i hnil
    have hrest : dropEndWhile drop rest = [] := by simpa [dropEndWhile] using hnil
    rw [hfront, List.reverse_reverse, hrest, List.append_nil]
  · rw [List.reverse_append, List.reverse_reverse]
    rfl

/-- A start with nothing to trim at its ends stays. -/
theorem trim_append {front : List Char} (hne : front ≠ [])
    (hhead : ∀ c ∈ front.head?, isBlank c = false) (hlast : ∀ c ∈ front.getLast?, isBlank c = false)
    (rest : List Char) : trim (front ++ rest) = front ++ dropEndWhile isBlank rest := by
  have hstart : trimStart (front ++ rest) = front ++ rest := by
    cases front with
    | nil => exact absurd rfl hne
    | cons c front => simp [trimStart, hhead c (by simp)]
  rw [trim, hstart, dropEndWhile_append hlast]

/-- A text with nothing to trim at its ends stays. -/
theorem trim_eq_self_of_ends {text : List Char} (hhead : ∀ c ∈ text.head?, isBlank c = false)
    (hlast : ∀ c ∈ text.getLast?, isBlank c = false) : trim text = text := by
  by_cases hne : text = []
  · subst hne
    rfl
  · simpa [dropEndWhile] using trim_append hne hhead hlast []

theorem trim_eq_self {text : List Char} (h : ∀ c ∈ text, isBlank c = false) : trim text = text :=
  trim_eq_self_of_ends (fun c hc => h c (List.mem_of_head? hc))
    fun c hc => h c (List.mem_of_getLast? hc)

end TraceAudit.Text
