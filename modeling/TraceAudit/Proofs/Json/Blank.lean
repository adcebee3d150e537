import TraceAudit.Json.Tree

/-!
# White space around JSON texts

White space in front of a JSON text and behind it does not change what is read:

* `Utf8.decode_append` decodes a sequence piece by piece;
* `Json.ofBytes?_blank_append` drops white space in front of any octets, a JSON text or not;
* `Json.ofBytes?_append_blank` adds white space behind a JSON text;
* `Json.ofBytes?_formFeed` refuses a form feed, which counts as white space between lines only.

The way back from `Json.ofBytes?_append_blank` does not hold: `1 ` is a JSON text, and so is `1 2`
without its end.
-/

namespace TraceAudit

/-! ## Decoding piece by piece -/

theorem Utf8.decode_append {a b : Bytes} {text : List Char} (h : decode a = some text) :
    decode (a ++ b) = (text ++ ·) <$> decode b := by
  -- One case for each length of a character: its octets are all in front, and the rest follows.
  fun_induction decode a generalizing text with
  | case1 =>
    cases h
    simp
  | case2 x rest hx ih =>
    rcases Option.map_eq_some_iff.1 h with ⟨more, hmore, rfl⟩
    rw [List.cons_append, decode.eq_def]
    simp [hx, ih hmore, Function.comp_def]
  | case3 x hx hx' y rest ih =>
    rcases Option.bind_eq_some_iff.1 h with ⟨c, hc, h⟩
    rcases Option.map_eq_some_iff.1 h with ⟨more, hmore, rfl⟩
    rw [List.cons_append, List.cons_append, decode.eq_def]
    simp [hx, hx', hc, ih hmore, Function.comp_def]
  | case5 x hx hx' hx'' y z rest ih =>
    rcases Option.bind_eq_some_iff.1 h with ⟨c, hc, h⟩
    rcases Option.map_eq_some_iff.1 h with ⟨more, hmore, rfl⟩
    rw [List.cons_append, List.cons_append, List.cons_append, decode.eq_def]
    simp [hx, hx', hx'', hc, ih hmore, Function.comp_def]
  | case7 x hx hx' hx'' hx''' y z w rest ih =>
    rcases Option.bind_eq_some_iff.1 h with ⟨c, hc, h⟩
    rcases Option.map_eq_some_iff.1 h with ⟨more, hmore, rfl⟩
    rw [List.cons_append, List.cons_append, List.cons_append, List.cons_append, decode.eq_def]
    simp [hx, hx', hx'', hx''', hc, ih hmore, Function.comp_def]
  | _ => cases h

namespace Json

/-- Space, tab, line feed or carriage return: the white space of JSON texts, as an octet. -/
def isBlankOctet (b : UInt8) : Bool := b == 0x20 || b == 0x09 || b == 0x0A || b == 0x0D

theorem decode_blank {blank : Bytes} (h : blank.all isBlankOctet = true) :
    ∃ text, Utf8.decode blank = some text ∧ ∀ c ∈ text, Reader.isSpace c = true := by
  induction blank with
  | nil =>
    exact ⟨[], rfl, by simp⟩
  | cons b rest ih =>
    have hsplit : isBlankOctet b = true ∧ rest.all isBlankOctet = true := by
      simpa using h
    rcases ih hsplit.2 with ⟨text, htext, hspace⟩
    have hb : b = 0x20 ∨ b = 0x09 ∨ b = 0x0A ∨ b = 0x0D := by
      simpa [isBlankOctet, or_assoc] using hsplit.1
    refine ⟨Char.ofNat b.toNat :: text, ?_, ?_⟩
    · rcases hb with rfl | rfl | rfl | rfl <;> rw [Utf8.decode.eq_def] <;> simp [htext]
    · intro c hc
      rcases List.mem_cons.1 hc with rfl | hc
      · rcases hb with rfl | rfl | rfl | rfl <;> decide
      · exact hspace c hc

end Json

/-! ## The machine and white space -/

namespace Reader

theorem start_blank {text : List Char} (h : ∀ c ∈ text, isSpace c = true) :
    text.foldlM step start = some start := by
  induction text with
  | nil => rfl
  | cons c rest ih =>
    have hstep : start.step c = some start := by
      simp [start, step, h c (by simp)]
    rw [List.foldlM_cons, hstep]
    exact ih fun d hd => h d (by simp [hd])

/-- White space ends a complete numeral. -/
theorem extend_space (numeral : Numeral) {phase : Phase} {c : Char} (hc : isSpace c = true)
    (hphase : phase.complete = true) : numeral.extend? phase c = none := by
  have hcases : c = ' ' ∨ c = '\t' ∨ c = '\n' ∨ c = '\r' := by
    simpa [isSpace, or_assoc] using hc
  rcases hcases with rfl | rfl | rfl | rfl <;> cases phase <;> rfl

/-- Behind a complete text the machine passes over white space. -/
theorem step_space {r : Reader} {tree : JsonTree} {c : Char} (h : r.finish = some tree)
    (hc : isSpace c = true) : ∃ next, r.step c = some next ∧ next.finish = some tree := by
  rcases r with ⟨frames, mode⟩
  cases frames with
  | cons frame rest =>
    simp [finish] at h
  | nil =>
    cases mode with
    | finished found =>
      exact ⟨⟨[], .finished found⟩, by simp [step, hc], h⟩
    | numeral numeral phase =>
      -- Only white space tells that the numeral has come to its end.
      by_cases hphase : phase.complete = true
      · have hend := extend_space numeral hc hphase
        refine ⟨⟨[], .finished (.number numeral)⟩, ?_, ?_⟩
        · simp [step, hend, hphase, complete, after?, hc]
        · simpa [finish, hphase] using h
      · simp [finish, hphase] at h
    | _ => simp [finish] at h

theorem foldlM_space {text : List Char} (htext : ∀ c ∈ text, isSpace c = true) {r : Reader}
    {tree : JsonTree} (h : r.finish = some tree) :
    (text.foldlM step r).bind finish = some tree := by
  induction text generalizing r with
  | nil =>
    simpa using h
  | cons c rest ih =>
    rcases step_space h (htext c (by simp)) with ⟨next, hnext, hfinish⟩
    rw [List.foldlM_cons, hnext]
    exact ih (fun d hd => htext d (by simp [hd])) hfinish

end Reader

/-! ## White space around a text -/

namespace JsonTree

theorem read_space_append {blank text : List Char} (h : ∀ c ∈ blank, Reader.isSpace c = true) :
    read (blank ++ text) = read text := by
  simp [read, List.foldlM_append, Reader.start_blank h]

theorem read_append_space {blank text : List Char} (h : ∀ c ∈ blank, Reader.isSpace c = true)
    {tree : JsonTree} (htree : read text = some tree) : read (text ++ blank) = some tree := by
  rcases Option.bind_eq_some_iff.1 htree with ⟨r, hr, hfinish⟩
  rw [read, List.foldlM_append, hr]
  exact Reader.foldlM_space h hfinish

end JsonTree

namespace Json

/-- White space in front of octets does not change what is read. -/
theorem ofBytes?_blank_append {blank : Bytes} (h : blank.all isBlankOctet = true) (bytes : Bytes) :
    ofBytes? (blank ++ bytes) = ofBytes? bytes := by
  rcases decode_blank h with ⟨text, htext, hspace⟩
  rw [ofBytes?, Utf8.decode_append htext, ofBytes?]
  cases Utf8.decode bytes with
  | none => rfl
  | some rest =>
    simp [ofText?, JsonTree.read_space_append hspace]

/-- A form feed is no white space of JSON texts. -/
theorem ofBytes?_formFeed (rest : Bytes) : ofBytes? (0x0C :: rest) = none := by
  have hfeed : Utf8.decode [0x0C] = some ['\x0c'] := by decide
  have hdecode : Utf8.decode (0x0C :: rest) = (['\x0c'] ++ ·) <$> Utf8.decode rest :=
    Utf8.decode_append hfeed
  rw [ofBytes?, hdecode]
  cases Utf8.decode rest with
  | none => rfl
  | some text => rfl

/-- White space behind a JSON text does not change what is read. -/
theorem ofBytes?_append_blank {blank bytes : Bytes} {json : Json}
    (h : blank.all isBlankOctet = true) (hjson : ofBytes? bytes = some json) :
    ofBytes? (bytes ++ blank) = some json := by
  rcases decode_blank h with ⟨text, htext, hspace⟩
  rcases Option.bind_eq_some_iff.1 hjson with ⟨chars, hchars, hread⟩
  rcases Option.bind_eq_some_iff.1 hread with ⟨tree, htree, hvalue⟩
  rw [ofBytes?, Utf8.decode_append hchars, htext]
  simp [ofText?, JsonTree.read_append_space hspace htree, hvalue]

end Json
end TraceAudit
