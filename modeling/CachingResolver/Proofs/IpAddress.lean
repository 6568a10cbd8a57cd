import CachingResolver.IpAddress

/-!
# Addresses are read back from their texts

The text of an address of either family, read again, gives the address (`IpAddress.ofText?_text`).
For IPv6 this covers all three forms of the text: eight groups, groups around `::`, and a dotted
tail.
-/

namespace CachingResolver

open CachingResolver.Text

/-! ### Digits -/

section Digits

variable {base : Nat} {digit : Char → Option Nat}

/-- The digits of a base are read as what they stand for. -/
def ReadsDigits (base : Nat) (digit : Char → Option Nat) : Prop :=
  ∀ d < base, digit (Nat.digitChar d) = some d

theorem readsDigits_digit? : ReadsDigits 10 digit? := by
  unfold ReadsDigits
  decide

theorem readsDigits_hexDigit? : ReadsDigits 16 hexDigit? := by
  unfold ReadsDigits
  decide

theorem isSome_of_mem_toDigits (hbase : 1 < base) (h : ReadsDigits base digit) (n : Nat) :
    ∀ c ∈ Nat.toDigits base n, (digit c).isSome = true := by
  induction n using Nat.strongRecOn with
  | ind n ih =>
      intro c hc
      rw [Nat.toDigits_eq_if hbase] at hc
      split at hc
      · rename_i hlt
        obtain rfl := List.mem_singleton.1 hc
        rw [h n hlt]
        rfl
      · rename_i hlt
        rcases List.mem_append.1 hc with hc | hc
        · exact ih (n / base) (Nat.div_lt_self (by omega) hbase) c hc
        · obtain rfl := List.mem_singleton.1 hc
          rw [h (n % base) (Nat.mod_lt _ (by omega))]
          rfl

theorem ofDigits_toDigits (hbase : 1 < base) (h : ReadsDigits base digit) (n : Nat) :
    ofDigits base ((Nat.toDigits base n).filterMap digit) = n := by
  induction n using Nat.strongRecOn with
  | ind n ih =>
      rw [Nat.toDigits_eq_if hbase]
      split
      · rename_i hlt
        simp [h n hlt, ofDigits]
      · rename_i hlt
        have hrest := ih (n / base) (Nat.div_lt_self (by omega) hbase)
        have hlast := h (n % base) (Nat.mod_lt _ (by omega))
        unfold ofDigits at hrest ⊢
        rw [List.filterMap_append, List.foldl_append, hrest]
        simp [hlast, Nat.div_add_mod]

theorem length_filterMap_of_isSome {cs : List Char} (h : ∀ c ∈ cs, (digit c).isSome = true) :
    (cs.filterMap digit).length = cs.length := by
  induction cs with
  | nil => rfl
  | cons c cs ih =>
      obtain ⟨d, hd⟩ := Option.isSome_iff_exists.1 (h c List.mem_cons_self)
      have hrest := ih fun c hc => h c (List.mem_cons_of_mem _ hc)
      simp [hd, hrest]

/-- A text does not go on with a digit. -/
def Stops (digit : Char → Option Nat) (rest : List Char) : Prop :=
  rest.dropWhile (digit · |>.isSome) = rest ∧ rest.takeWhile (digit · |>.isSome) = []

theorem stops_nil : Stops digit [] := ⟨rfl, rfl⟩

theorem stops_cons {c : Char} (cs : List Char) (h : (digit c).isSome = false) :
    Stops digit (c :: cs) := by
  simp [Stops, h]

/-- A run of digits is read as a whole when no digit follows. -/
theorem spanDigits_append {cs rest : List Char} (h : ∀ c ∈ cs, (digit c).isSome = true)
    (hrest : Stops digit rest) : spanDigits digit (cs ++ rest) = (cs.filterMap digit, rest) := by
  unfold spanDigits
  rw [List.takeWhile_append_of_pos h, List.dropWhile_append_of_pos h, hrest.1, hrest.2,
    List.append_nil]

end Digits

@[simp] theorem readChar_cons (c : Char) (cs : List Char) : readChar c (c :: cs) = some cs := by
  simp [readChar]

theorem readChar_eq_none {c : Char} {cs : List Char} (h : cs.head? ≠ some c) :
    readChar c cs = none := by
  cases cs with
  | nil => rfl
  | cons d cs => simpa [readChar] using h

/-! ### IPv4 -/

namespace Ipv4

/-- The decimal text of an octet passes all the tests of the reader. -/
theorem octet_wellFormed : ∀ n < 256,
    let ds := (Nat.toDigits 10 n).filterMap digit?
    ¬ (ds = [] ∨ 3 < ds.length ∨ (ds.head? = some 0 ∧ 1 < ds.length) ∨ 255 < ofDigits 10 ds) := by
  decide +kernel

theorem readOctet_decimal (n : UInt8) {rest : List Char} (hrest : Stops digit? rest) :
    readOctet ((decimal n.toNat).toList ++ rest) = some (n, rest) := by
  have hdigits := isSome_of_mem_toDigits (by decide) readsDigits_digit? n.toNat
  have hvalue := ofDigits_toDigits (by decide) readsDigits_digit? n.toNat
  have hformed := octet_wellFormed n.toNat n.toNat_lt
  unfold readOctet decimal
  rw [String.toList_ofList, spanDigits_append hdigits hrest]
  dsimp only
  rw [if_neg hformed, hvalue, UInt8.ofNat_toNat]

/-- The text of an address is read back, whatever follows but a digit. -/
theorem read_text (x : Ipv4) {rest : List Char} (hrest : Stops digit? rest) :
    read (x.text.toList ++ rest) = some (x, rest) := by
  have hdot : ∀ cs, Stops digit? ('.' :: cs) := fun cs => stops_cons cs (by decide)
  have htext : x.text.toList ++ rest = (decimal x.a.toNat).toList ++
      ('.' :: ((decimal x.b.toNat).toList ++ ('.' :: ((decimal x.c.toNat).toList ++
        ('.' :: ((decimal x.d.toNat).toList ++ rest)))))) := by
    simp [text]
  unfold read
  rw [htext]
  simp [readOctet_decimal, hdot, hrest]

/-- A text without a dot in front of a colon or the end is no dotted address. -/
theorem read_eq_none {cs rest : List Char} (hdot : '.' ∉ cs)
    (hrest : rest = [] ∨ ∃ more, rest = ':' :: more) : read (cs ++ rest) = none := by
  -- The reader stops at the first character that is no digit, and that is no dot.
  have hhead : ((cs ++ rest).dropWhile (digit? · |>.isSome)).head? ≠ some '.' := by
    induction cs with
    | nil =>
        rcases hrest with rfl | ⟨more, rfl⟩
        · simp
        · simp [show digit? ':' = none by decide]
    | cons c cs ih =>
        rw [List.cons_append, List.dropWhile_cons]
        split
        · exact ih fun h => hdot (List.mem_cons_of_mem _ h)
        · intro h
          obtain rfl : c = '.' := by simpa using h
          exact hdot List.mem_cons_self
  have hnone := readChar_eq_none hhead
  unfold read readOctet spanDigits
  dsimp only
  split
  · rfl
  · simp [hnone]

theorem read_colon (cs : List Char) : read (':' :: cs) = none := by
  have h : read ([] ++ ':' :: cs) = none := read_eq_none List.not_mem_nil (.inr ⟨cs, rfl⟩)
  exact h

end Ipv4

/-! ### IPv6 -/

namespace Ipv6

/-- The characters of groups that follow another group. -/
def moreChars (gs : List UInt16) : List Char :=
  gs.flatMap fun g => ':' :: (groupText g).toList

theorem toList_groupsText (g : UInt16) (gs : List UInt16) :
    (groupsText (g :: gs)).toList = (groupText g).toList ++ moreChars gs := by
  induction gs generalizing g with
  | nil => simp [groupsText, moreChars]
  | cons h gs ih =>
      rw [groupsText, String.toList_append, String.toList_append, ih]
      · simp [moreChars]
      · simp

theorem isSome_of_mem_groupText (g : UInt16) :
    ∀ c ∈ (groupText g).toList, (hexDigit? c).isSome = true := by
  unfold groupText
  rw [String.toList_ofList]
  exact isSome_of_mem_toDigits (by decide) readsDigits_hexDigit? g.toNat

theorem readGroup_groupText (g : UInt16) {rest : List Char} (hrest : Stops hexDigit? rest) :
    readGroup ((groupText g).toList ++ rest) = some (g, rest) := by
  have hdigits := isSome_of_mem_groupText g
  have hvalue := ofDigits_toDigits (by decide) readsDigits_hexDigit? g.toNat
  have hlength : (Nat.toDigits 16 g.toNat).length ≤ 4 :=
    (Nat.length_toDigits_le_iff (by decide) (by decide)).2 g.toNat_lt
  have hpos := Nat.length_toDigits_pos (b := 16) (n := g.toNat)
  have hsame := length_filterMap_of_isSome hdigits
  unfold readGroup
  rw [spanDigits_append hdigits hrest]
  unfold groupText at hsame ⊢
  rw [String.toList_ofList] at hsame ⊢
  dsimp only
  rw [if_neg, hvalue, UInt16.ofNat_toNat]
  rintro (hnil | hlong)
  · rw [hnil] at hsame
    simp at hsame
    omega
  · omega

theorem readGroup_of_stops {cs : List Char} (h : Stops hexDigit? cs) : readGroup cs = none := by
  have hspan : spanDigits hexDigit? ([] ++ cs) = _ := spanDigits_append (by simp) h
  rw [List.nil_append] at hspan
  simp [readGroup, hspan]

theorem dot_not_mem_groupText (g : UInt16) : '.' ∉ (groupText g).toList := by
  intro h
  exact absurd (isSome_of_mem_groupText g '.' h) (by decide)

/-- What may follow the groups of a run: nothing, or the `::` before the next run. -/
def Closes (rest : List Char) : Prop :=
  rest = [] ∨ ∃ more, rest = ':' :: ':' :: more

theorem readGroups_of_closes {rest : List Char} (h : Closes rest) (room : Nat) (first : Bool) :
    readGroups room first rest = ([], false, rest) := by
  have hgroup : ∀ cs, readGroup (':' :: cs) = none := fun cs =>
    readGroup_of_stops (stops_cons cs (by decide))
  cases room with
  | zero => rfl
  | succ room =>
      unfold readGroups
      rcases h with rfl | ⟨more, rfl⟩
      · -- Without a separator there is no group, and at the front there is none to read.
        cases first
        · simp [readSeparator, readChar]
        · have hempty : Ipv4.read [] = none := rfl
          simp [readSeparator, hempty, readGroup_of_stops stops_nil]
      · cases first <;> simp [readSeparator, Ipv4.read_colon, hgroup]

/-- A group in front of a colon or the end is read, and then what follows it. -/
theorem readGroups_group {cs rest : List Char} {first : Bool} {g : UInt16} (room : Nat)
    (hcs : readSeparator first cs = some ((groupText g).toList ++ rest))
    (hrest : rest = [] ∨ ∃ more, rest = ':' :: more) :
    readGroups (room + 1) first cs =
      (g :: (readGroups room false rest).1, (readGroups room false rest).2) := by
  have hdotted : Ipv4.read ((groupText g).toList ++ rest) = none :=
    Ipv4.read_eq_none (dot_not_mem_groupText g) hrest
  have hstops : Stops hexDigit? rest := by
    rcases hrest with rfl | ⟨more, rfl⟩
    · exact stops_nil
    · exact stops_cons more (by decide)
  rw [readGroups, hcs]
  simp [hdotted, readGroup_groupText g hstops]

theorem closes_or_colon {gs : List UInt16} {rest : List Char} (h : Closes rest) :
    moreChars gs ++ rest = [] ∨ ∃ more, moreChars gs ++ rest = ':' :: more := by
  cases gs with
  | nil =>
      rcases h with rfl | ⟨more, rfl⟩
      · exact .inl rfl
      · exact .inr ⟨_, rfl⟩
  | cons g gs => exact .inr ⟨_, rfl⟩

theorem readGroups_moreChars {gs : List UInt16} {rest : List Char} {room : Nat} (hrest : Closes rest)
    (hroom : gs.length ≤ room) :
    readGroups room false (moreChars gs ++ rest) = (gs, false, rest) := by
  induction gs generalizing room with
  | nil => exact readGroups_of_closes hrest room false
  | cons g gs ih =>
      cases room with
      | zero => simp at hroom
      | succ room =>
          have hcs : readSeparator false (moreChars (g :: gs) ++ rest) =
              some ((groupText g).toList ++ (moreChars gs ++ rest)) := by
            simp [readSeparator, moreChars]
          rw [readGroups_group room hcs (closes_or_colon hrest), ih (by simpa using hroom)]

/-- The text of groups is read back, when there is room for them. -/
theorem readGroups_groupsText {gs : List UInt16} {rest : List Char} {room : Nat}
    (hrest : Closes rest) (hroom : gs.length ≤ room) :
    readGroups room true ((groupsText gs).toList ++ rest) = (gs, false, rest) := by
  cases gs with
  | nil => exact readGroups_of_closes hrest room true
  | cons g gs =>
      cases room with
      | zero => simp at hroom
      | succ room =>
          have hcs : readSeparator true ((groupsText (g :: gs)).toList ++ rest) =
              some ((groupText g).toList ++ (moreChars gs ++ rest)) := by
            rw [toList_groupsText, List.append_assoc]
            rfl
          rw [readGroups_group room hcs (closes_or_colon hrest),
            readGroups_moreChars hrest (by simpa using hroom)]

/-! ### The longest run of zero groups -/

/-- The groups from `start` on begin with `n` zeros. -/
def ZerosAt (gs : List UInt16) (run : Nat × Nat) : Prop :=
  (gs.drop run.1).take run.2 = List.replicate run.2 0

theorem zerosAt_takeWhile (gs : List UInt16) (i : Nat) :
    ZerosAt gs (i, ((gs.drop i).takeWhile (· == 0)).length) := by
  have hprefix := List.prefix_iff_eq_take.1 (List.takeWhile_prefix (l := gs.drop i) (· == 0))
  unfold ZerosAt
  rw [← hprefix, List.eq_replicate_iff]
  refine ⟨rfl, fun g hg => ?_⟩
  have hzero := List.all_eq_true.1 (List.all_takeWhile (p := (· == 0)) (l := gs.drop i)) g hg
  simpa using hzero

theorem zerosAt_longestZeroRun (gs : List UInt16) : ZerosAt gs (longestZeroRun gs) := by
  unfold longestZeroRun
  refine List.foldlRecOn _ _ (motive := ZerosAt gs) ?_ ?_
  · rfl
  · intro best hbest i _
    dsimp only
    split
    · exact zerosAt_takeWhile gs i
    · exact hbest

/-- Groups consist of what stands before a run of zeros, the run, and what stands behind it. -/
theorem eq_append_of_zerosAt {gs : List UInt16} {run : Nat × Nat} (h : ZerosAt gs run) :
    gs.take run.1 ++ (List.replicate run.2 0 ++ gs.drop (run.1 + run.2)) = gs := by
  unfold ZerosAt at h
  rw [← h, ← List.drop_drop, List.take_append_drop, List.take_append_drop]

/-! ### The three forms of the text -/

theorem ofGroups?_groups (x : Ipv6) : ofGroups? x.groups = some x := by
  simp [ofGroups?, x.length_eq]

/-- Eight groups without `::` are read back. -/
theorem read_groupsText (x : Ipv6) : read (groupsText x.groups).toList = some (x, []) := by
  have hgroups : readGroups 8 true ((groupsText x.groups).toList ++ []) = (x.groups, false, []) :=
    readGroups_groupsText (.inl rfl) (Nat.le_of_eq x.length_eq)
  rw [List.append_nil] at hgroups
  unfold read
  rw [hgroups]
  simp [x.length_eq, ofGroups?_groups]

/-- Groups around `::` are read back. -/
theorem read_groupsText_around (x : Ipv6) {run : Nat × Nat} (h : ZerosAt x.groups run)
    (hrun : 1 < run.2) :
    read ((groupsText (x.groups.take run.1)).toList ++
      ':' :: ':' :: (groupsText (x.groups.drop (run.1 + run.2))).toList) = some (x, []) := by
  have hwhole := eq_append_of_zerosAt h
  have hlength := congrArg List.length hwhole
  simp only [List.length_append, List.length_replicate, x.length_eq] at hlength
  generalize hhead : x.groups.take run.1 = head at hwhole hlength ⊢
  generalize htail : x.groups.drop (run.1 + run.2) = tail at hwhole hlength ⊢
  have hread : readGroups 8 true
      ((groupsText head).toList ++ ':' :: ':' :: (groupsText tail).toList) =
        (head, false, ':' :: ':' :: (groupsText tail).toList) :=
    readGroups_groupsText (.inr ⟨_, rfl⟩) (by omega)
  have hreadTail : readGroups (7 - head.length) true ((groupsText tail).toList ++ []) =
      (tail, false, []) :=
    readGroups_groupsText (.inl rfl) (by omega)
  rw [List.append_nil] at hreadTail
  -- The reader fills up with as many zeros as the run has.
  have hzeros : 8 - head.length - tail.length = run.2 := by omega
  unfold read
  rw [hread]
  dsimp only
  rw [if_neg (by omega)]
  simp [hreadTail, hzeros, hwhole, ofGroups?_groups]

theorem groupOf_bytes (g : UInt16) : groupOf (g >>> 8).toUInt8 g.toUInt8 = g := by
  have hlt := g.toNat_lt
  apply UInt16.toNat_inj.1
  have hhigh : ((g.toNat >>> 8) % 256) <<< 8 % 65536 = (g.toNat / 256) <<< 8 := by
    rw [Nat.shiftRight_eq_div_pow, Nat.shiftLeft_eq, Nat.shiftLeft_eq]
    omega
  have hlow : g.toNat % 256 < 2 ^ 8 := Nat.mod_lt _ (by decide)
  have hjoined : ((g.toNat >>> 8) % 256) <<< 8 % 65536 ||| g.toNat % 256 = g.toNat := by
    rw [hhigh, ← Nat.shiftLeft_add_eq_or_of_lt hlow, Nat.shiftLeft_eq]
    omega
  simpa [groupOf] using hjoined

/-- The dotted form is read back. -/
theorem read_embedded {x : Ipv6} {y : Ipv4} (h : x.embedded? = some y) :
    read ("::ffff:" ++ y.text).toList = some (x, []) := by
  unfold embedded? at h
  split at h
  · rename_i g k hgroups
    obtain rfl := Option.some.inj h
    have htext : ∀ cs, "::ffff:".toList ++ cs =
        ':' :: ':' :: ((groupText 0xffff).toList ++ ':' :: cs) := fun cs => rfl
    have hdotted : ∀ cs y, Ipv4.read cs = some (y, []) →
        readGroups 6 false (':' :: cs) = ([groupOf y.a y.b, groupOf y.c y.d], true, []) := by
      intro cs y hy
      simp [readGroups, readSeparator, hy]
    have hread := Ipv4.read_text
      ⟨(g >>> 8).toUInt8, g.toUInt8, (k >>> 8).toUInt8, k.toUInt8⟩ stops_nil
    rw [List.append_nil] at hread
    rw [String.toList_append]
    generalize (Ipv4.mk (g >>> 8).toUInt8 g.toUInt8 (k >>> 8).toUInt8 k.toUInt8).text.toList = cs
      at hread ⊢
    have htail : readGroups 7 true ((groupText 0xffff).toList ++ ':' :: cs) = _ :=
      readGroups_group 6 rfl (.inr ⟨cs, rfl⟩)
    rw [hdotted _ _ hread, groupOf_bytes, groupOf_bytes] at htail
    rw [htext]
    unfold read
    rw [readGroups_of_closes (.inr ⟨_, rfl⟩)]
    have hx := ofGroups?_groups x
    rw [hgroups] at hx
    simp [htail, hx]
  · cases h

theorem read_text (x : Ipv6) : read x.text.toList = some (x, []) := by
  unfold text
  cases h : x.embedded? with
  | some y => exact read_embedded h
  | none =>
      dsimp only
      split
      · rename_i hrun
        have hread := x.read_groupsText_around (zerosAt_longestZeroRun x.groups) hrun
        rw [String.toList_append, String.toList_append]
        simpa using hread
      · exact x.read_groupsText

theorem dot_not_mem_groupsText (gs : List UInt16) : '.' ∉ (groupsText gs).toList := by
  cases gs with
  | nil => simp [groupsText]
  | cons g gs =>
      rw [toList_groupsText]
      simp [moreChars, dot_not_mem_groupText]

/-- The text of an address is not the beginning of a dotted one. -/
theorem readV4_text (x : Ipv6) : Ipv4.read x.text.toList = none := by
  unfold text
  cases x.embedded? with
  | some y =>
      rw [String.toList_append]
      exact Ipv4.read_colon _
  | none =>
      dsimp only
      split
      · rw [String.toList_append, String.toList_append, List.append_assoc]
        exact Ipv4.read_eq_none (dot_not_mem_groupsText _) (.inr ⟨_, rfl⟩)
      · have hnone := Ipv4.read_eq_none (dot_not_mem_groupsText x.groups) (.inl rfl)
        rwa [List.append_nil] at hnone

end Ipv6

theorem Ipv4.ofText?_text (x : Ipv4) : Ipv4.ofText? x.text = some x := by
  have hread := x.read_text stops_nil
  rw [List.append_nil] at hread
  rw [ofText?, hread]

theorem Ipv6.ofText?_text (x : Ipv6) : Ipv6.ofText? x.text = some x := by
  rw [ofText?, x.read_text]

/-- The text of an address, read again, gives the address. -/
theorem IpAddress.ofText?_text (x : IpAddress) : IpAddress.ofText? x.text = some x := by
  unfold ofText? text read
  cases x with
  | v4 x =>
      have hread := x.read_text stops_nil
      rw [List.append_nil] at hread
      simp [hread]
  | v6 x => simp [x.readV4_text, x.read_text]

end CachingResolver
