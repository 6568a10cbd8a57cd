import CachingResolver.DomainName.International
import CachingResolver.Proofs.Lines
import Mathlib.Data.List.Basic

/-!
# What the display of a label shows

A label is displayed as it is written or, when it is marked as Punycode and valid, with characters
beyond ASCII.  In the second case at least one of these characters is no blank, so that a display
which differs from the text can be told by a visible character: `exists_wide_of_displayLabel_ne`.

The proof rests on three properties of the tables, which are evaluated line by line: the second part
of a composite lies beyond ASCII, no composite starts with a hyphen, and no blank beyond ASCII stays
as it is in a domain name.
-/

namespace CachingResolver.Text.Unicode

/-! ### Composition leaves the mark of Punycode alone -/

section Composition

variable {a b c : Char} {cs : List Char}

/-- The composites that the words of a line write. -/
def lineComposites (line : List Char) : List Composite :=
  (words line).filterMap Composite.ofWord?

/-- A composite of something other than a hyphen and a character beyond ASCII. -/
def Composite.isWide (e : Composite) : Bool :=
  e.first != '-' && decide (128 ≤ e.last.toNat)

theorem isWide_of_mem_compositePairs :
    ∀ line ∈ compositePairs, (lineComposites line.toList).all Composite.isWide = true := by
  unfold compositePairs
  repeat' refine List.forall_mem_cons.2 ⟨?_, ?_⟩
  all_goals first
    | exact List.forall_mem_nil _
    | (rw [String.toList_ofList]; decide +kernel)

theorem isWide_of_mem_composites {e : Composite} (h : e ∈ composites) :
    e.first ≠ '-' ∧ 128 ≤ e.last.toNat := by
  obtain ⟨word, hword, he⟩ := List.mem_filterMap.1 h
  obtain ⟨line, hline, hword⟩ := List.mem_flatMap.1 hword
  have hwide := List.all_eq_true.1 (isWide_of_mem_compositePairs line hline) e
    (List.mem_filterMap.2 ⟨word, hword, he⟩)
  simpa [Composite.isWide] using hwide

theorem place?_eq_none {base count : Nat} (h : c.toNat < base) : place? base count c = none := by
  refine if_neg ?_
  omega

theorem syllableOf?_ascii (h : b.toNat < 128) : syllableOf? a b = none := by
  have hvowel : place? vowelBase vowelCount b = none := place?_eq_none (by rw [vowelBase]; omega)
  have htrailing : place? trailingBase trailingCount b = none :=
    place?_eq_none (by rw [trailingBase]; omega)
  simp [syllableOf?, hvowel, htrailing]

theorem syllableOf?_of_ascii (h : a.toNat < 128) : syllableOf? a b = none := by
  have hleading : place? leadingBase leadingCount a = none :=
    place?_eq_none (by rw [leadingBase]; omega)
  have hsyllable : syllable? a = none := place?_eq_none (by rw [syllableBase]; omega)
  simp [syllableOf?, hleading, hsyllable]

theorem composite?_ascii (h : b.toNat < 128) : composite? a b = none := by
  have hfind : (composites.find? fun e => e.first == a && e.last == b) = none := by
    refine List.find?_eq_none.2 fun e he hparts => ?_
    have hlast : e.last = b := by simp_all
    have hwide := (isWide_of_mem_composites he).2
    rw [hlast] at hwide
    omega
  rw [composite?, syllableOf?_ascii h, hfind]
  rfl

theorem composite?_hyphen : composite? '-' b = none := by
  have hfind : (composites.find? fun e => e.first == '-' && e.last == b) = none := by
    refine List.find?_eq_none.2 fun e he hparts => ?_
    have hfirst : e.first = '-' := by simp_all
    exact (isWide_of_mem_composites he).1 hfirst
  rw [composite?, syllableOf?_of_ascii (by decide), hfind]
  rfl

theorem combiningClass_ascii (h : c.toNat < 128) : combiningClass c = 0 :=
  if_pos (by omega)

theorem parts_ascii (h : c.toNat < 128) : parts c = [c] := by
  have hsyllable : syllable? c = none := place?_eq_none (by rw [syllableBase]; omega)
  rw [parts, hsyllable]
  exact if_pos (by omega)

theorem sortMarks_cons_ascii (h : c.toNat < 128) : sortMarks (c :: cs) = c :: sortMarks cs := by
  rw [sortMarks, if_pos (combiningClass_ascii h)]

/-- A letter stays when an ASCII character follows it. -/
theorem joinParts_cons_ascii (h : b.toNat < 128) :
    joinParts a [] (b :: cs) = a :: joinParts b [] cs := by
  rw [joinParts, composite?_ascii h, combiningClass_ascii h]
  rfl

/-- A letter that is the first part of no composite stays, whatever follows. -/
theorem exists_joinParts_eq_cons (h : ∀ b, composite? a b = none) (marks : List Char) :
    ∃ rest, joinParts a marks cs = a :: rest := by
  induction cs generalizing marks with
  | nil => exact ⟨marks.reverse, rfl⟩
  | cons c cs ih =>
      have hnone : (if marks.head?.any fun mark => combiningClass c ≤ combiningClass mark then none
          else composite? a c) = none := by
        rw [h]
        split <;> rfl
      rw [joinParts, hnone]
      dsimp only
      split
      · exact ⟨_, rfl⟩
      · exact ih _

end Composition

/-! ### No blank beyond ASCII is kept -/

section Blanks

variable {c : Char}

/-- The blanks beyond ASCII that are refused. -/
def refusedBlanks : List Char :=
  [0x85, 0x1680, 0x2028, 0x2029].map Char.ofNat

/-- The blanks beyond ASCII that become others. -/
def replacedBlanks : List Char :=
  [0xa0, 0x2000, 0x2001, 0x2002, 0x2003, 0x2004, 0x2005, 0x2006, 0x2007, 0x2008, 0x2009, 0x200a,
    0x202f, 0x205f, 0x3000].map Char.ofNat

theorem mem_of_isBlank (h : isBlank c = true) (hwide : 128 ≤ c.toNat) :
    c ∈ refusedBlanks ∨ c ∈ replacedBlanks := by
  have hcode : c.toNat ∈ [0x85, 0x1680, 0x2028, 0x2029] ∨
      c.toNat ∈ [0xa0, 0x2000, 0x2001, 0x2002, 0x2003, 0x2004, 0x2005, 0x2006, 0x2007, 0x2008,
        0x2009, 0x200a, 0x202f, 0x205f, 0x3000] := by
    unfold isBlank at h
    simp only [Bool.or_eq_true, Bool.and_eq_true, decide_eq_true_eq, beq_iff_eq] at h
    simp only [List.mem_cons, List.not_mem_nil, or_false]
    omega
  exact hcode.imp (fun h => List.mem_map.2 ⟨_, h, Char.ofNat_toNat c⟩)
    fun h => List.mem_map.2 ⟨_, h, Char.ofNat_toNat c⟩

/-- The runs that the words of a line write. -/
def lineRuns (line : List Char) : Runs :=
  (words line).filterMap Run.ofWord?

theorem contains_ofLines {lines : List String} :
    (Runs.ofLines lines).contains c = true ↔
      ∃ line ∈ lines, (lineRuns line.toList).contains c = true := by
  simp only [Runs.contains, Runs.ofLines, lineWords, lineRuns, List.any_eq_true, List.mem_filterMap,
    List.mem_flatMap]
  refine ⟨?_, ?_⟩
  · rintro ⟨r, ⟨word, ⟨line, hline, hword⟩, hr⟩, hc⟩
    exact ⟨line, hline, r, ⟨word, hword, hr⟩, hc⟩
  · rintro ⟨line, hline, r, ⟨word, hword, hr⟩, hc⟩
    exact ⟨r, ⟨word, ⟨line, hline, hword⟩, hr⟩, hc⟩

theorem refused_of_mem_refusedBlanks : ∀ c ∈ refusedBlanks, refused.contains c = true := by
  have hline : ∀ (i : Nat) {line : String} {c : Char}, refusedRuns[i]? = some line →
      (lineRuns line.toList).contains c = true → refused.contains c = true :=
    fun i line c hline hc => contains_ofLines.2 ⟨line, List.mem_of_getElem? hline, hc⟩
  unfold refusedBlanks
  refine List.forall_mem_cons.2 ⟨hline 0 rfl ?_, List.forall_mem_cons.2 ⟨hline 13 rfl ?_,
    List.forall_mem_cons.2 ⟨hline 19 rfl ?_, List.forall_mem_cons.2 ⟨hline 19 rfl ?_, nofun⟩⟩⟩⟩
  all_goals
    rw [String.toList_ofList]
    decide +kernel

/-- Every shift in a line goes to another character. -/
def lineShifts (line : List Char) : Bool :=
  (words line).all fun word =>
    (valuedRun? word).all fun (_, value) => (distance? value).all (· != 0)

theorem lineShifts_of_mem_shiftedRuns : ∀ line ∈ shiftedRuns, lineShifts line.toList = true := by
  unfold shiftedRuns
  repeat' refine List.forall_mem_cons.2 ⟨?_, ?_⟩
  all_goals first
    | exact List.forall_mem_nil _
    | (rw [String.toList_ofList]; decide +kernel)

theorem ne_zero_of_mem_shifted {r : Run} {distance : Int} (h : (r, distance) ∈ shifted) :
    distance ≠ 0 := by
  obtain ⟨word, hword, hr⟩ := List.mem_filterMap.1 h
  obtain ⟨line, hline, hword⟩ := List.mem_flatMap.1 hword
  simp only [Option.bind_eq_bind, Option.bind_eq_some_iff] at hr
  obtain ⟨⟨run, value⟩, hvalued, d, hd, heq⟩ := hr
  cases heq
  have hshifts := List.all_eq_true.1 (lineShifts_of_mem_shiftedRuns line hline) word hword
  rw [hvalued] at hshifts
  simpa [hd] using hshifts

theorem not_alternating_of_mem_replacedBlanks :
    ∀ line ∈ alternatingRuns,
      (replacedBlanks.all fun c => !(lineRuns line.toList).contains c) = true := by
  unfold alternatingRuns
  repeat' refine List.forall_mem_cons.2 ⟨?_, ?_⟩
  all_goals first
    | exact List.forall_mem_nil _
    | (rw [String.toList_ofList]; decide +kernel)

theorem alternating_find?_eq_none (hc : c ∈ replacedBlanks) :
    alternating.find? (·.contains c) = none := by
  refine List.find?_eq_none.2 fun r hr hcontains => ?_
  obtain ⟨line, hline, hmem⟩ := contains_ofLines.1 (List.any_eq_true.2 ⟨r, hr, hcontains⟩)
  have hnot := List.all_eq_true.1 (not_alternating_of_mem_replacedBlanks line hline) c hc
  rw [hmem] at hnot
  cases hnot

/-- The code point that a word of the table of replacements starts with. -/
def wordStart? (word : List Char) : Option Nat :=
  (splitOnce ':' word).bind fun (start, _) => hexadecimal? start

/-- What a word of the table of replacements says that a character becomes. -/
def wordImage (word : List Char) : List Char :=
  (splitAt '.' (((splitOnce ':' word).map (·.2)).getD word)).filterMap codePoint?

/-- No word of a line says that a character becomes a blank beyond ASCII. -/
def lineImages (line : List Char) : Bool :=
  (words line).all fun word =>
    (wordImage word).all fun c => decide (c.toNat < 128) || !isBlank c

/-- The characters of which a line that starts with a code point tells what they become. -/
def lineKeys (line : List Char) : List Char :=
  match words line with
  | [] => []
  | word :: more =>
    if (wordStart? word).isSome then ((word :: more).foldl addReplacement (0, [])).2.map (·.1)
    else []

theorem lineImages_of_mem_replacedRuns : ∀ line ∈ replacedRuns, lineImages line.toList = true := by
  unfold replacedRuns
  repeat' refine List.forall_mem_cons.2 ⟨?_, ?_⟩
  all_goals first
    | exact List.forall_mem_nil _
    | (rw [String.toList_ofList]; decide +kernel)

theorem addReplacement_eq (table : Nat × List (Char × List Char)) (word : List Char) :
    addReplacement table word =
      ((wordStart? word).getD table.1 + 1,
        (Char.ofNat ((wordStart? word).getD table.1), wordImage word) :: table.2) := by
  unfold addReplacement wordStart? wordImage
  cases splitOnce ':' word <;> rfl

section Folding

variable {n : Nat} {es more : List (Char × List Char)} {ws : List (List Char)}
  {e : Char × List Char}

theorem eq_wordImage_of_mem_foldl (h : e ∈ (ws.foldl addReplacement (n, es)).2) :
    e ∈ es ∨ ∃ word ∈ ws, e.2 = wordImage word := by
  induction ws generalizing n es with
  | nil => exact .inl h
  | cons word ws ih =>
      rw [List.foldl_cons, addReplacement_eq] at h
      rcases ih h with h | ⟨w, hw, heq⟩
      · rcases List.mem_cons.1 h with rfl | h
        · exact .inr ⟨word, List.mem_cons_self, rfl⟩
        · exact .inl h
      · exact .inr ⟨w, List.mem_cons_of_mem _ hw, heq⟩

theorem foldl_subset (h : es ⊆ more) :
    (ws.foldl addReplacement (n, es)).2 ⊆ (ws.foldl addReplacement (n, more)).2 := by
  induction ws generalizing n es more with
  | nil => exact h
  | cons word ws ih =>
      rw [List.foldl_cons, List.foldl_cons, addReplacement_eq, addReplacement_eq]
      exact ih (List.cons_subset_cons _ h)

theorem subset_foldl : es ⊆ (ws.foldl addReplacement (n, es)).2 := by
  induction ws generalizing n es with
  | nil => exact List.Subset.refl _
  | cons word ws ih =>
      rw [List.foldl_cons, addReplacement_eq]
      exact List.Subset.trans (List.subset_cons_self _ _) ih

/-- The words of a line that starts with a code point say the same after any other words. -/
theorem exists_mem_foldl_of_lineKeys {line : List Char} (hc : c ∈ lineKeys line) :
    ∃ e ∈ ((words line).foldl addReplacement (n, es)).2, e.1 = c := by
  unfold lineKeys at hc
  split at hc
  · cases hc
  · rename_i word more hwords
    split at hc
    · rename_i hstart
      obtain ⟨start, hstart⟩ := Option.isSome_iff_exists.1 hstart
      obtain ⟨e, he, rfl⟩ := List.mem_map.1 hc
      refine ⟨e, ?_, rfl⟩
      rw [List.foldl_cons, addReplacement_eq, hstart] at he
      rw [hwords, List.foldl_cons, addReplacement_eq, hstart]
      exact foldl_subset (List.cons_subset_cons _ (List.nil_subset _)) he
    · cases hc

end Folding

theorem exists_mem_replaced_of_lineKeys {line : String} (hline : line ∈ replacedRuns)
    (hc : c ∈ lineKeys line.toList) : ∃ e ∈ replaced, e.1 = c := by
  obtain ⟨front, back, hlines⟩ := List.append_of_mem hline
  have hwords : lineWords replacedRuns =
      lineWords front ++ words line.toList ++ lineWords back := by
    unfold lineWords
    rw [hlines, List.flatMap_append, List.flatMap_cons, List.append_assoc]
  unfold replaced
  rw [hwords, List.foldl_append, List.foldl_append]
  obtain ⟨e, he, hkey⟩ := exists_mem_foldl_of_lineKeys hc
  exact ⟨e, List.mem_reverse.2 (subset_foldl he), hkey⟩

theorem exists_mem_replaced_of_mem_replacedBlanks :
    ∀ c ∈ replacedBlanks, ∃ e ∈ replaced, e.1 = c := by
  have hline : ∀ (i : Nat) {line : String} {cs : List Char}, replacedRuns[i]? = some line →
      (cs.all fun c => c ∈ lineKeys line.toList) = true → ∀ c ∈ cs, ∃ e ∈ replaced, e.1 = c := by
    intro i line cs hget hall c hc
    have hkey := List.all_eq_true.1 hall c hc
    exact exists_mem_replaced_of_lineKeys (List.mem_of_getElem? hget) (of_decide_eq_true hkey)
  have hsplit : replacedBlanks = ['\u00a0'] ++ ((replacedBlanks.drop 1).take 12 ++
      (['\u205f'] ++ ['\u3000'])) := by decide
  rw [hsplit]
  simp only [List.forall_mem_append]
  refine ⟨hline 0 rfl ?_, hline 31 rfl ?_, hline 33 rfl ?_, hline 63 rfl ?_⟩
  all_goals
    rw [String.toList_ofList]
    decide +kernel

/-- No character becomes a blank beyond ASCII. -/
theorem not_blank_of_mem_replaced {e : Char × List Char} (he : e ∈ replaced) (hc : c ∈ e.2)
    (hwide : 128 ≤ c.toNat) : isBlank c = false := by
  rcases eq_wordImage_of_mem_foldl (List.mem_reverse.1 he) with he | ⟨word, hword, heq⟩
  · cases he
  · obtain ⟨line, hline, hword⟩ := List.mem_flatMap.1 hword
    have himages := List.all_eq_true.1 (lineImages_of_mem_replacedRuns line hline) word hword
    have hcheck := List.all_eq_true.1 himages c (heq ▸ hc)
    simpa [Nat.not_lt.2 hwide] using hcheck

/-- The character with a number has that number, or the number zero when there is none. -/
theorem toNat_ofNat (n : Nat) : (Char.ofNat n).toNat = n ∨ (Char.ofNat n).toNat = 0 := by
  unfold Char.ofNat
  by_cases hvalid : n.isValidChar
  · rw [dif_pos hvalid]
    exact .inl rfl
  · rw [dif_neg hvalid]
    exact .inr rfl

theorem replacement_ne_self_of_mem_replacedBlanks (hc : c ∈ replacedBlanks)
    (hblank : isBlank c = true) (hwide : 128 ≤ c.toNat) : replacement c ≠ [c] := by
  unfold replacement
  split
  · rename_i r distance hfind
    have hzero := ne_zero_of_mem_shifted (List.mem_of_find?_eq_some hfind)
    intro heq
    have hcode : (Char.ofNat (c.toNat + distance).toNat).toNat = c.toNat :=
      congrArg Char.toNat (List.cons.inj heq).1
    rcases toNat_ofNat (c.toNat + distance).toNat with h | h
    all_goals omega
  · rw [alternating_find?_eq_none hc]
    dsimp only
    obtain ⟨e, he, hkey⟩ := exists_mem_replaced_of_mem_replacedBlanks c hc
    intro heq
    cases hlookup : replaced.lookup c with
    | none =>
        have hne := List.lookup_eq_none_iff.1 hlookup e he
        simp [hkey] at hne
    | some image =>
        rw [hlookup] at heq
        obtain ⟨front, back, hsplit, -⟩ := List.lookup_eq_some_iff.1 hlookup
        have hmem : (c, image) ∈ replaced := hsplit ▸ List.mem_append_right _ List.mem_cons_self
        have himage : c ∈ image := (show image = [c] from heq) ▸ List.mem_cons_self
        have hnot := not_blank_of_mem_replaced hmem himage hwide
        rw [hblank] at hnot
        cases hnot

/-- A character beyond ASCII that stays as it is in a domain name is no blank. -/
theorem isBlank_eq_false_of_isKept (hkept : isKept c = true) (hwide : 128 ≤ c.toNat) :
    isBlank c = false := by
  by_contra hblank
  have hblank : isBlank c = true := by simpa using hblank
  have hbecome : become? c = some [c] := by simpa [isKept] using hkept
  unfold become? at hbecome
  rw [if_neg (by omega)] at hbecome
  rcases mem_of_isBlank hblank hwide with hc | hc
  · rw [if_pos (refused_of_mem_refusedBlanks c hc)] at hbecome
    cases hbecome
  · split at hbecome
    · cases hbecome
    · split at hbecome
      · cases hbecome
      · exact replacement_ne_self_of_mem_replacedBlanks hc hblank hwide (Option.some.inj hbecome)

end Blanks

end CachingResolver.Text.Unicode

/-! ### Displayed labels -/

namespace CachingResolver.DomainName

open CachingResolver.Text
open CachingResolver.Text.Unicode

section Display

variable {label : List UInt8} {cs text rest piece : List Char} {parts : List (List Char)} {c : Char}

theorem compose_punycodeMark_append (cs : List Char) :
    ∃ rest, compose (punycodeMark ++ cs) = punycodeMark ++ rest := by
  obtain ⟨hx, hn, hhyphen⟩ : 'x'.toNat < 128 ∧ 'n'.toNat < 128 ∧ '-'.toNat < 128 := by decide
  obtain ⟨rest, hrest⟩ :
      ∃ rest, joinParts '-' [] (sortMarks (cs.flatMap Unicode.parts)) = '-' :: rest :=
    exists_joinParts_eq_cons (fun _ => composite?_hyphen) []
  refine ⟨rest, ?_⟩
  have hparts : (punycodeMark ++ cs).flatMap Unicode.parts =
      'x' :: 'n' :: '-' :: '-' :: cs.flatMap Unicode.parts := by
    unfold punycodeMark
    simp only [List.cons_append, List.nil_append, List.flatMap_cons, parts_ascii hx, parts_ascii hn,
      parts_ascii hhyphen]
  rw [compose, hparts, sortMarks_cons_ascii hx, sortMarks_cons_ascii hn,
    sortMarks_cons_ascii hhyphen, sortMarks_cons_ascii hhyphen, joinAll,
    if_pos (combiningClass_ascii hx), joinParts_cons_ascii hn, joinParts_cons_ascii hhyphen,
    joinParts_cons_ascii hhyphen, hrest]
  rfl

theorem decodeLossy_of_isPrefixOf
    (h : (punycodeMark.map fun c => UInt8.ofNat c.toNat).isPrefixOf label = true) :
    ∃ rest, Utf8.decodeLossy label = punycodeMark ++ rest := by
  obtain ⟨octets, rfl⟩ := List.isPrefixOf_iff_prefix.1 h
  refine ⟨Utf8.decodeLossy octets, ?_⟩
  show Utf8.decodeLossy (0x78 :: 0x6e :: 0x2d :: 0x2d :: octets) = _
  rw [Utf8.decodeLossy_one (by decide), Utf8.decodeLossy_one (by decide),
    Utf8.decodeLossy_one (by decide), Utf8.decodeLossy_one (by decide)]
  rfl

theorem mapped?_punycodeMark_append (h : mapped? (punycodeMark ++ cs) = some text) :
    ∃ rest, text = punycodeMark ++ rest := by
  obtain ⟨images, himages, rfl⟩ := Option.map_eq_some_iff.1 h
  have hmark : punycodeMark.mapM become? = some (punycodeMark.map fun c => [c]) := by
    have hx : become? 'x' = some ['x'] := become?_ascii (by decide)
    have hn : become? 'n' = some ['n'] := become?_ascii (by decide)
    have hhyphen : become? '-' = some ['-'] := become?_ascii (by decide)
    simp [punycodeMark, List.mapM_cons, hx, hn, hhyphen]
  rw [List.mapM_append, hmark] at himages
  simp only [Option.bind_eq_bind, Option.bind_some, Option.bind_eq_some_iff] at himages
  obtain ⟨more, -, heq⟩ := himages
  cases heq
  exact compose_punycodeMark_append more.flatten

theorem mem_intercalate_cons (sep : List Char) (hc : c ∈ piece) :
    c ∈ List.intercalate sep (piece :: parts) := by
  cases parts with
  | nil => simpa using hc
  | cons next rest =>
      rw [List.intercalate_cons_cons]
      exact List.mem_append_left _ (List.mem_append_left _ hc)

/-- What Punycode stands for has a visible character beyond ASCII. -/
theorem exists_wide_of_unicodeLabel? (h : unicodeLabel? cs = some piece) :
    ∃ c ∈ piece, 128 ≤ c.toNat ∧ isBlank c = false := by
  unfold unicodeLabel? at h
  split at h
  · cases h
  · simp only [Option.pure_def, Option.bind_eq_bind, Option.bind_eq_some_iff] at h
    obtain ⟨text, -, h⟩ := h
    split at h
    · rename_i hvalid
      cases h
      simp only [Bool.and_eq_true, List.any_eq_true, List.all_eq_true, decide_eq_true_eq] at hvalid
      obtain ⟨⟨⟨⟨c, hc, hwide⟩, hkept⟩, -⟩, -⟩ := hvalid
      exact ⟨c, hc, hwide, isBlank_eq_false_of_isKept (hkept c hc) hwide⟩
    · cases h

theorem exists_wide_of_displayMarked?
    (hmark : (punycodeMark.map fun c => UInt8.ofNat c.toNat).isPrefixOf label = true)
    (h : displayMarked? label = some cs) : ∃ c ∈ cs, 128 ≤ c.toNat ∧ isBlank c = false := by
  unfold displayMarked? at h
  simp only [Option.bind_eq_bind, Option.bind_eq_some_iff] at h
  obtain ⟨text, hmapped, parts, hparts, h⟩ := h
  split at h
  · cases h
    obtain ⟨rest, hrest⟩ := decodeLossy_of_isPrefixOf hmark
    rw [hrest] at hmapped
    obtain ⟨rest, rfl⟩ := mapped?_punycodeMark_append hmapped
    have hdot : '.' ∉ punycodeMark := by decide
    obtain ⟨first, more, hrest⟩ := exists_splitAt_cons '.' rest
    rw [splitAt_append_of_not_mem hdot hrest, List.mapM_cons] at hparts
    simp only [Option.bind_eq_bind, Option.bind_eq_some_iff] at hparts
    obtain ⟨piece, hpiece, pieces, -, heq⟩ := hparts
    cases heq
    have hprefix : punycodeMark.isPrefixOf (punycodeMark ++ first) = true :=
      List.isPrefixOf_iff_prefix.2 (List.prefix_append _ _)
    rw [displayPart?, if_pos hprefix] at hpiece
    obtain ⟨c, hc, hwide⟩ := exists_wide_of_unicodeLabel? hpiece
    exact ⟨c, mem_intercalate_cons _ hc, hwide⟩
  · cases h

/-- A label that is not displayed as it is written is displayed with a visible character beyond
ASCII. -/
theorem exists_wide_of_displayLabel_ne (h : displayLabel label ≠ labelChars label) :
    ∃ c ∈ displayLabel label, 128 ≤ c.toNat ∧ isBlank c = false := by
  unfold displayLabel at h ⊢
  split at h
  · rename_i hmark
    rw [if_pos hmark]
    cases hmarked : displayMarked? label with
    | none =>
        rw [hmarked] at h
        exact absurd rfl h
    | some cs => exact exists_wide_of_displayMarked? hmark hmarked
  · exact absurd rfl h

end Display

end CachingResolver.DomainName
