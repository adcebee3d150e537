import TraceAudit.Proofs.Json.Blank

/-!
# JSON texts that are complete early

An object ends where its last bracket closes, so a text that starts with a complete text and reads
as an object adds nothing but white space.

* `Reader.foldlM_finish` says it of the machine: only a numeral can be complete and still go on;
* `Json.isBlankOctet_of_decode` gets from the characters of white space back to its octets;
* `Json.ofBytes?_of_append` puts them together.
-/

namespace TraceAudit

/-! ## The machine behind a complete text -/

namespace Reader

/-- The machine stands in a numeral outside of all containers, or behind one. -/
def InNumeral (r : Reader) : Prop :=
  (∃ numeral phase, r = ⟨[], .numeral numeral phase⟩) ∨
    ∃ numeral, r = ⟨[], .finished (.number numeral)⟩

theorem finish_cases {r : Reader} {tree : JsonTree} (h : r.finish = some tree) :
    r = ⟨[], .finished tree⟩ ∨ r.InNumeral := by
  rcases r with ⟨frames, mode⟩
  cases frames with
  | cons frame rest => simp [finish] at h
  | nil =>
    cases mode with
    | finished found =>
      have hfound : found = tree := by simpa [finish] using h
      exact Or.inl (by rw [hfound])
    | numeral numeral phase => exact Or.inr (Or.inl ⟨numeral, phase, rfl⟩)
    | _ => simp [finish] at h

theorem step_finished {tree : JsonTree} {c : Char} {next : Reader}
    (h : step ⟨[], .finished tree⟩ c = some next) :
    isSpace c = true ∧ next = ⟨[], .finished tree⟩ := by
  by_cases hc : isSpace c = true
  · have hnext : ⟨[], .finished tree⟩ = next := by simpa [step, hc] using h
    exact ⟨hc, hnext.symm⟩
  · simp [step, hc] at h

theorem InNumeral.step {r next : Reader} {c : Char} (h : r.InNumeral)
    (hstep : r.step c = some next) : next.InNumeral := by
  rcases h with ⟨numeral, phase, rfl⟩ | ⟨numeral, rfl⟩
  · cases hextend : numeral.extend? phase c with
    | some longer =>
      have hnext : ⟨[], .numeral longer.1 longer.2⟩ = next := by
        simpa [Reader.step, hextend] using hstep
      exact Or.inl ⟨longer.1, longer.2, hnext.symm⟩
    | none =>
      -- The character does not belong to the numeral, so it has to be white space behind it.
      by_cases hspace : phase.complete = true ∧ isSpace c = true
      · have hnext : ⟨[], .finished (.number numeral)⟩ = next := by
          simpa [Reader.step, hextend, hspace.1, complete, after?, hspace.2] using hstep
        exact Or.inr ⟨numeral, hnext.symm⟩
      · by_cases hphase : phase.complete = true
        · have hc : ¬isSpace c = true := fun hc => hspace ⟨hphase, hc⟩
          simp [Reader.step, hextend, hphase, complete, after?, hc] at hstep
        · simp [Reader.step, hextend, hphase] at hstep
  · exact Or.inr ⟨numeral, (step_finished hstep).2⟩

theorem InNumeral.foldlM {text : List Char} {r last : Reader} (h : r.InNumeral)
    (hrun : text.foldlM Reader.step r = some last) : last.InNumeral := by
  induction text generalizing r with
  | nil =>
    have hlast : r = last := by simpa using hrun
    exact hlast ▸ h
  | cons c rest ih =>
    rw [List.foldlM_cons] at hrun
    rcases Option.bind_eq_some_iff.1 hrun with ⟨next, hnext, hrest⟩
    exact ih (h.step hnext) hrest

theorem InNumeral.finish {r : Reader} {tree : JsonTree} (h : r.InNumeral)
    (hfinish : r.finish = some tree) : ∃ numeral, tree = .number numeral := by
  rcases h with ⟨numeral, phase, rfl⟩ | ⟨numeral, rfl⟩
  · by_cases hphase : phase.complete = true
    · have htree : JsonTree.number numeral = tree := by
        simpa [Reader.finish, hphase] using hfinish
      exact ⟨numeral, htree.symm⟩
    · simp [Reader.finish, hphase] at hfinish
  · have htree : JsonTree.number numeral = tree := by simpa [Reader.finish] using hfinish
    exact ⟨numeral, htree.symm⟩

/-- Behind a text that is complete there is only white space, unless the whole is a numeral. -/
theorem foldlM_finish {text : List Char} {r last : Reader} {early tree : JsonTree}
    (h : r.finish = some early) (hrun : text.foldlM step r = some last)
    (hlast : last.finish = some tree) (hnumber : ∀ numeral, tree ≠ .number numeral) :
    early = tree ∧ ∀ c ∈ text, isSpace c = true := by
  rcases finish_cases h with rfl | hnumeral
  · induction text with
    | nil =>
      have hsame : ⟨[], .finished early⟩ = last := by simpa using hrun
      rw [← hsame] at hlast
      exact ⟨by simpa [finish] using hlast, by simp⟩
    | cons c rest ih =>
      rw [List.foldlM_cons] at hrun
      rcases Option.bind_eq_some_iff.1 hrun with ⟨next, hnext, hrest⟩
      rcases step_finished hnext with ⟨hc, rfl⟩
      rcases ih hrest with ⟨hsame, hspace⟩
      exact ⟨hsame, by simpa [hc] using hspace⟩
  · rcases (hnumeral.foldlM hrun).finish hlast with ⟨numeral, hnumeral⟩
    exact absurd hnumeral (hnumber numeral)

end Reader

/-! ## From characters back to octets -/

namespace Json

/-- White space of JSON texts has one of four code points. -/
theorem isSpace_ofNat {n : Nat} (h : Reader.isSpace (Char.ofNat n) = true) :
    n = 0x20 ∨ n = 0x09 ∨ n = 0x0A ∨ n = 0x0D := by
  by_cases hvalid : n.isValidChar
  · have hcode : (Char.ofNat n).toNat = n := by
      rw [Char.ofNat, dif_pos hvalid]
      rfl
    have hcases : Char.ofNat n = ' ' ∨ Char.ofNat n = '\t' ∨ Char.ofNat n = '\n' ∨
        Char.ofNat n = '\r' := by
      simpa [Reader.isSpace, or_assoc] using h
    rw [← hcode]
    rcases hcases with hc | hc | hc | hc <;> rw [hc] <;> simp
  · -- A number that is no code point stands for the character zero.
    rw [Char.ofNat, dif_neg hvalid] at h
    cases h

theorem isSpace_ofNat_of_lt {n : Nat} (h : 0x20 < n) : Reader.isSpace (Char.ofNat n) = false := by
  cases hspace : Reader.isSpace (Char.ofNat n) with
  | false => rfl
  | true =>
    have hcode := isSpace_ofNat hspace
    omega

theorem two?_not_space {a b : UInt8} {c : Char} (h : Utf8.two? a b = some c) :
    Reader.isSpace c = false := by
  rcases Option.bind_eq_some_iff.1 h with ⟨y, -, hc⟩
  by_cases ha : 0xC2 ≤ a
  · have hlead : 0xC2 ≤ a.toNat := ha
    rw [if_pos ha] at hc
    rw [← Option.some.inj hc]
    exact isSpace_ofNat_of_lt (by omega)
  · rw [if_neg ha] at hc
    cases hc

theorem three?_not_space {a b c : UInt8} {d : Char} (h : Utf8.three? a b c = some d) :
    Reader.isSpace d = false := by
  rcases Option.bind_eq_some_iff.1 h with ⟨y, -, h⟩
  rcases Option.bind_eq_some_iff.1 h with ⟨z, -, hd⟩
  simp only at hd
  split at hd
  · cases hd
  · rw [← Option.some.inj hd]
    exact isSpace_ofNat_of_lt (by omega)

theorem four?_not_space {a b c d : UInt8} {e : Char} (h : Utf8.four? a b c d = some e) :
    Reader.isSpace e = false := by
  rcases Option.bind_eq_some_iff.1 h with ⟨y, -, h⟩
  rcases Option.bind_eq_some_iff.1 h with ⟨z, -, h⟩
  rcases Option.bind_eq_some_iff.1 h with ⟨w, -, he⟩
  simp only at he
  split at he
  · cases he
  · rw [← Option.some.inj he]
    exact isSpace_ofNat_of_lt (by omega)

/-- White space is written in single octets. -/
theorem isBlankOctet_of_decode {bytes : Bytes} {text : List Char}
    (h : Utf8.decode bytes = some text) (hspace : ∀ c ∈ text, Reader.isSpace c = true) :
    bytes.all isBlankOctet = true := by
  -- A character of several octets is never white space, so only the single octets are left.
  fun_induction Utf8.decode bytes generalizing text with
  | case1 => rfl
  | case2 a rest ha ih =>
    rcases Option.map_eq_some_iff.1 h with ⟨more, hmore, rfl⟩
    have hrest := ih hmore fun c hc => hspace c (List.mem_cons_of_mem _ hc)
    have hcode := isSpace_ofNat (hspace _ List.mem_cons_self)
    have hblank : isBlankOctet a = true := by
      rcases hcode with h | h | h | h <;> simp [isBlankOctet, ← UInt8.toNat_inj, h]
    rw [List.all_cons, hblank, hrest]
    rfl
  | case3 a _ _ b rest ih =>
    rcases Option.bind_eq_some_iff.1 h with ⟨c, hc, h⟩
    rcases Option.map_eq_some_iff.1 h with ⟨more, -, rfl⟩
    exact absurd (hspace c List.mem_cons_self) (by simp [two?_not_space hc])
  | case5 a _ _ _ b c rest ih =>
    rcases Option.bind_eq_some_iff.1 h with ⟨d, hd, h⟩
    rcases Option.map_eq_some_iff.1 h with ⟨more, -, rfl⟩
    exact absurd (hspace d List.mem_cons_self) (by simp [three?_not_space hd])
  | case7 a _ _ _ _ b c d rest ih =>
    rcases Option.bind_eq_some_iff.1 h with ⟨e, he, h⟩
    rcases Option.map_eq_some_iff.1 h with ⟨more, -, rfl⟩
    exact absurd (hspace e List.mem_cons_self) (by simp [four?_not_space he])
  | _ => cases h

/-- What follows a JSON text and makes it an object is white space, and the text is that object. -/
theorem ofBytes?_of_append {early rest : Bytes} {found json : Json}
    (hearly : ofBytes? early = some found) (hjson : ofBytes? (early ++ rest) = some json)
    (hobject : json.isObject = true) : found = json ∧ rest.all isBlankOctet = true := by
  rcases Option.bind_eq_some_iff.1 hearly with ⟨front, hfront, hread⟩
  rcases Option.bind_eq_some_iff.1 hread with ⟨tree, htree, hfound⟩
  rcases Option.bind_eq_some_iff.1 htree with ⟨r, hr, hfinish⟩
  rw [ofBytes?, Utf8.decode_append hfront] at hjson
  rcases Option.bind_eq_some_iff.1 hjson with ⟨text, htext, hread'⟩
  rcases Option.map_eq_some_iff.1 htext with ⟨back, hback, rfl⟩
  rcases Option.bind_eq_some_iff.1 hread' with ⟨whole, hwhole, hvalue⟩
  -- The machine goes on where the first text left it.
  rw [JsonTree.read, List.foldlM_append, hr] at hwhole
  rcases Option.bind_eq_some_iff.1 hwhole with ⟨last, hlast, hfinish'⟩
  have hnumber : ∀ numeral, whole ≠ .number numeral := by
    rintro numeral rfl
    split at hvalue
    · rcases Option.map_eq_some_iff.1 hvalue with ⟨number, -, rfl⟩
      cases hobject
    · cases hvalue
  rcases Reader.foldlM_finish hfinish hlast hfinish' hnumber with ⟨rfl, hspace⟩
  exact ⟨Option.some.inj (hfound.symm.trans hvalue), isBlankOctet_of_decode hback hspace⟩

end Json
end TraceAudit
