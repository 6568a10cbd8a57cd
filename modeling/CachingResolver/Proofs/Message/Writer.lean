import CachingResolver.Message.Decode
import CachingResolver.Message.Encode
import CachingResolver.Proofs.Octets
import Mathlib.Algebra.GroupWithZero.Nat
import Mathlib.Data.List.Infix

/-!
# What is written is read

A pointer leads to an ending of a name that was written before, and what it leads to may end in a
pointer again.  So reading a name rests on all names before it: at a position, every ending that is
known has to stand in the message before that position (`AllStand`).  Each writer keeps this
(`Writer.Keeps`), and where it holds, what is written of a name is read as its labels
(`DomainName.readLabels_encodeLabels`).  A name in a message reaches up to the root, so names come
back `completed`.

`Writer.Stands` gathers what reading a passage needs, and `Reads` says that it is read as some
thing.  Both go from the parts to the whole (`Writer.Stands.first`, `Writer.Stands.second`,
`reads_readMany`).
-/

namespace CachingResolver

open CachingResolver.Octets

/-! ### Octets in a message -/

/-- Octets stand at a position of a message. -/
def StandsAt (message : List UInt8) (pos : Nat) (octets : List UInt8) : Prop :=
  octets <+: message.drop pos

section StandsAt

variable {message octets front back : List UInt8} {pos width n : Nat}

theorem StandsAt.drop_eq (h : StandsAt message pos octets) :
    message.drop pos = octets ++ message.drop (pos + octets.length) := by
  obtain ⟨rest, hrest⟩ := h
  rw [← List.drop_drop, ← hrest, List.drop_left]

theorem StandsAt.seek_eq (h : StandsAt message pos octets) :
    Cursor.seek message pos = ⟨pos, octets ++ message.drop (pos + octets.length)⟩ := by
  rw [← h.drop_eq]
  rfl

theorem standsAt_append : StandsAt message pos (front ++ back) ↔
    StandsAt message pos front ∧ StandsAt message (pos + front.length) back := by
  constructor
  · intro h
    have hfront : StandsAt message pos front := (List.prefix_append front back).trans h
    refine ⟨hfront, ?_⟩
    unfold StandsAt at h
    rwa [hfront.drop_eq, List.prefix_append_right_inj] at h
  · rintro ⟨hfront, hback⟩
    unfold StandsAt
    rwa [hfront.drop_eq, List.prefix_append_right_inj]

theorem StandsAt.take? (h : StandsAt message pos octets) :
    (Cursor.seek message pos).take? octets.length =
      some (octets, .seek message (pos + octets.length)) := by
  rw [h.seek_eq, Cursor.take?, Octets.take?_append]
  rfl

theorem StandsAt.nat? (h : StandsAt message pos (ofNat width n)) :
    (Cursor.seek message pos).nat? width =
      some (n % 256 ^ width, .seek message (pos + width)) := by
  have htake := h.take?
  rw [length_ofNat] at htake
  rw [Cursor.nat?, htake, Option.map_some]
  exact congrArg (fun m => some (m, Cursor.seek message (pos + width))) (toNat_ofNat width n)

theorem StandsAt.word16? {n : UInt16} (h : StandsAt message pos (ofWord16 n)) :
    (Cursor.seek message pos).word16? = some (n, .seek message (pos + 2)) := by
  have hn : n.toNat % 256 ^ 2 = n.toNat := Nat.mod_eq_of_lt n.toNat_lt
  rw [Cursor.word16?, h.nat?, hn, Option.map_some]
  exact congrArg (fun m => some (m, Cursor.seek message (pos + 2))) UInt16.ofNat_toNat

theorem StandsAt.word32? {n : UInt32} (h : StandsAt message pos (ofWord32 n)) :
    (Cursor.seek message pos).word32? = some (n, .seek message (pos + 4)) := by
  have hn : n.toNat % 256 ^ 4 = n.toNat := Nat.mod_eq_of_lt n.toNat_lt
  rw [Cursor.word32?, h.nat?, hn, Option.map_some]
  exact congrArg (fun m => some (m, Cursor.seek message (pos + 4))) UInt32.ofNat_toNat

end StandsAt

@[simp] theorem length_ofWord16 (n : UInt16) : (ofWord16 n).length = 2 :=
  length_ofNat 2 _

@[simp] theorem length_ofWord32 (n : UInt32) : (ofWord32 n).length = 4 :=
  length_ofNat 4 _

/-! ### Names -/

namespace DomainName

/-- The name up to the root. -/
def completed (n : DomainName) : DomainName :=
  { n with isComplete := true }

theorem completed_eq_self {n : DomainName} (h : n.isComplete = true) : n.completed = n := by
  obtain ⟨labels, isComplete, hlabels⟩ := n
  obtain rfl : isComplete = true := h
  rfl

/-- An ending stands where it is said to, wholly before a position of a message. -/
structure EndingStands (message : List UInt8) (stop : Nat) (ending : List (List UInt8) × Nat) :
    Prop where
  lt_stop : ending.2 < stop
  lt_pointerEnd : ending.2 < Writer.pointerEnd
  exists_readLabels : ∀ limit, stop ≤ limit → ∃ after,
    readLabels message ending.2 (some limit) (.seek message ending.2) = some (ending.1, after)

/-- All endings that are known at a position of a message stand before it. -/
def AllStand (message : List UInt8) (stop : Nat) (known : Endings) : Prop :=
  ∀ ending ∈ known, EndingStands message stop ending

variable {message label : List UInt8} {start pos stop target : Nat} {limit : Option Nat}
  {known : Endings} {labels : List (List UInt8)}

theorem AllStand.mono (h : AllStand message pos known) (hle : pos ≤ stop) :
    AllStand message stop known := fun ending hmem =>
  { lt_stop := (h ending hmem).lt_stop.trans_le hle
    lt_pointerEnd := (h ending hmem).lt_pointerEnd
    exists_readLabels := fun limit hlimit =>
      (h ending hmem).exists_readLabels limit (hle.trans hlimit) }

theorem EndingStands.of_lookup (h : AllStand message stop known)
    (hlookup : known.lookup labels = some target) : EndingStands message stop (labels, target) := by
  obtain ⟨before, after, rfl, -⟩ := List.lookup_eq_some_iff.1 hlookup
  exact h _ (List.mem_append_right before List.mem_cons_self)

theorem any_le_eq_false (h : ∀ l ∈ limit, pos < l) : limit.any (· ≤ pos) = false := by
  cases limit with
  | none => rfl
  | some l => simpa using h l rfl

theorem readLabels_zero (hlimit : ∀ l ∈ limit, pos < l) (rest : List UInt8) :
    readLabels message start limit ⟨pos, 0 :: rest⟩ = some ([], ⟨pos + 1, rest⟩) := by
  rw [readLabels, any_le_eq_false hlimit]
  simp

theorem readLabels_label (hlimit : ∀ l ∈ limit, pos < l) (hne : label ≠ [])
    (hsize : label.length ≤ maxLabelSize) (rest : List UInt8) :
    readLabels message start limit ⟨pos, UInt8.ofNat label.length :: (label ++ rest)⟩ =
      (readLabels message start limit ⟨pos + 1 + label.length, rest⟩).map
        fun (labels, cursor) => (label :: labels, cursor) := by
  have hsize : label.length ≤ 63 := hsize
  have hpos : 0 < label.length := List.length_pos_iff.2 hne
  have hcode : (UInt8.ofNat label.length).toNat = label.length := by
    rw [UInt8.toNat_ofNat']
    omega
  have hzero : UInt8.ofNat label.length ≠ 0 := by
    rw [Ne, ← UInt8.toNat_inj, hcode]
    exact Nat.pos_iff_ne_zero.1 hpos
  have hshort : UInt8.ofNat label.length < 64 := by
    rw [UInt8.lt_iff_toNat_lt, hcode]
    exact Nat.lt_succ_of_le hsize
  have htake : Octets.take? (UInt8.ofNat label.length).toNat (label ++ rest) =
      some (label, rest) := by
    rw [hcode]
    exact Octets.take?_append label rest
  rw [readLabels, any_le_eq_false hlimit]
  simp only [Bool.false_eq_true, if_false, if_neg hzero, if_pos hshort]
  split
  · rename_i hnone
    rw [htake] at hnone
    cases hnone
  · rename_i hsome
    rw [htake] at hsome
    cases hsome
    rw [hcode]

/-- The two octets of a pointer. -/
theorem ofNat_pointer (h : target < Writer.pointerEnd) : ∃ high low : UInt8,
    ofNat 2 (0xc000 + target) = [high, low] ∧ 192 ≤ high ∧ pointerTarget high low = target := by
  have h : target < 16383 := h
  refine ⟨UInt8.ofNat ((0xc000 + target) / 256), UInt8.ofNat (0xc000 + target), rfl, ?_, ?_⟩
  · rw [UInt8.le_iff_toNat_le, UInt8.toNat_ofNat']
    show 192 ≤ _
    omega
  · unfold pointerTarget
    rw [UInt8.toNat_ofNat', UInt8.toNat_ofNat']
    omega

theorem readLabels_pointer (hlimit : ∀ l ∈ limit, pos < l) (hend : target < Writer.pointerEnd)
    (hstart : target < start) (rest : List UInt8) :
    readLabels message start limit ⟨pos, ofNat 2 (0xc000 + target) ++ rest⟩ =
      (readLabels message target (some start) (.seek message target)).map
        fun (labels, _) => (labels, ⟨pos + 2, rest⟩) := by
  obtain ⟨high, low, hoctets, hhigh, htarget⟩ := ofNat_pointer hend
  have hzero : high ≠ 0 := by
    rintro rfl
    exact absurd hhigh (by decide)
  have hlong : ¬ high < 64 := fun hlt =>
    absurd (UInt8.lt_of_le_of_lt hhigh hlt) (by decide)
  rw [hoctets, List.cons_append, readLabels, any_le_eq_false hlimit]
  simp only [Bool.false_eq_true, if_false, if_neg hzero, if_neg hlong, if_pos hhigh, htarget,
    if_pos hstart, List.cons_append, List.nil_append]

theorem length_encodeLabels_pos (known : Endings) (labels : List (List UInt8)) :
    0 < (encodeLabels known labels).length := by
  cases labels with
  | nil => exact Nat.one_pos
  | cons label labels =>
      rw [encodeLabels]
      split <;> simp

theorem labelsSize_cons (label : List UInt8) (labels : List (List UInt8)) :
    labelsSize (label :: labels) = label.length + 1 + labelsSize labels := rfl

theorem labelsSize_pos (labels : List (List UInt8)) : 0 < labelsSize labels := by
  cases labels with
  | nil => exact Nat.one_pos
  | cons label labels =>
      rw [labelsSize_cons]
      omega

theorem encodeLabels_of_lookup (h : known.lookup (label :: labels) = some target) :
    encodeLabels known (label :: labels) = ofNat 2 (0xc000 + target) := by
  rw [encodeLabels, h]

theorem encodeLabels_of_new (h : known.lookup (label :: labels) = none) :
    encodeLabels known (label :: labels) =
      (UInt8.ofNat label.length :: label) ++ encodeLabels known labels := by
  rw [encodeLabels, h]
  rfl

/-- What is written of labels, where all known endings stand before their name, is read as these
labels. -/
theorem readLabels_encodeLabels (hknown : AllStand message start known)
    (hlabels : ∀ l ∈ labels, l ≠ [] ∧ l.length ≤ maxLabelSize)
    (hlimit : ∀ l ∈ limit, pos + (encodeLabels known labels).length ≤ l)
    (h : StandsAt message pos (encodeLabels known labels)) :
    readLabels message start limit (.seek message pos) =
      some (labels, .seek message (pos + (encodeLabels known labels).length)) := by
  have hbefore : ∀ l ∈ limit, pos < l := fun l hl =>
    Nat.lt_of_lt_of_le (Nat.lt_add_of_pos_right (length_encodeLabels_pos known labels))
      (hlimit l hl)
  induction labels generalizing pos with
  | nil =>
      rw [h.seek_eq]
      exact readLabels_zero hbefore _
  | cons label labels ih =>
      obtain ⟨⟨hne, hsize⟩, hlabels⟩ := List.forall_mem_cons.1 hlabels
      cases hlookup : known.lookup (label :: labels) with
      | some target =>
          have htarget := EndingStands.of_lookup hknown hlookup
          obtain ⟨after, hafter⟩ := htarget.exists_readLabels start (Nat.le_refl start)
          rw [encodeLabels_of_lookup hlookup] at h ⊢
          rw [h.seek_eq, readLabels_pointer hbefore htarget.lt_pointerEnd htarget.lt_stop, hafter,
            length_ofNat]
          rfl
      | none =>
          rw [encodeLabels_of_new hlookup] at h hlimit ⊢
          obtain ⟨hlabel, hrest⟩ := standsAt_append.1 h
          have hnext : pos + (UInt8.ofNat label.length :: label).length =
              pos + 1 + label.length := by
            rw [List.length_cons]
            omega
          have hpos := length_encodeLabels_pos known labels
          rw [List.length_append, ← Nat.add_assoc, hnext] at hlimit ⊢
          rw [hnext] at hrest
          rw [hlabel.seek_eq, hnext, List.cons_append, readLabels_label hbefore hne hsize]
          have hread := ih hlabels hlimit hrest fun l hl => by
            have := hlimit l hl
            omega
          unfold Cursor.seek at hread
          rw [hread]
          rfl

/-- The endings of labels that are written out stand where they were written. -/
theorem endingStands_of_mem_newEndings (hknown : AllStand message start known)
    (hlabels : ∀ l ∈ labels, l ≠ [] ∧ l.length ≤ maxLabelSize) (hstart : start ≤ pos)
    (hend : pos + (labelsSize labels - 1) ≤ Writer.pointerEnd)
    (hstop : pos + (encodeLabels known labels).length ≤ stop)
    (h : StandsAt message pos (encodeLabels known labels)) :
    ∀ ending ∈ newEndings known pos labels, EndingStands message stop ending := by
  induction labels generalizing pos with
  | nil => exact fun ending hmem => absurd hmem List.not_mem_nil
  | cons label labels ih =>
      cases hlookup : known.lookup (label :: labels) with
      | some target =>
          rw [newEndings, hlookup]
          exact fun ending hmem => absurd hmem List.not_mem_nil
      | none =>
          have hlength := length_encodeLabels_pos known (label :: labels)
          have hsize := labelsSize_pos labels
          rw [labelsSize_cons] at hend
          rw [newEndings, hlookup, List.forall_mem_cons]
          constructor
          · refine
              { lt_stop := Nat.lt_of_lt_of_le (Nat.lt_add_of_pos_right hlength) hstop
                lt_pointerEnd := show pos < _ by omega
                exists_readLabels := fun limit hlimit => ?_ }
            have hall : ∀ l ∈ some limit,
                pos + (encodeLabels known (label :: labels)).length ≤ l := by
              rintro _ ⟨⟩
              exact hstop.trans hlimit
            -- The ending is read like a name that starts at its position.
            exact ⟨_, readLabels_encodeLabels (hknown.mono hstart) hlabels hall h⟩
          · rw [encodeLabels_of_new hlookup] at h hstop
            rw [List.length_append, List.length_cons] at hstop
            have hrest := (standsAt_append.1 h).2
            rw [List.length_cons, Nat.add_comm label.length 1, ← Nat.add_assoc] at hrest
            exact ih (List.forall_mem_cons.1 hlabels).2 (by omega) (by omega) (by omega) hrest

/-- The octets that the name takes in a message when it is written without pointers. -/
def size (n : DomainName) : Nat :=
  labelsSize n.labels

/-- A pointer takes no more octets than what it replaces. -/
theorem length_encodeLabels_le (known : Endings) (labels : List (List UInt8))
    (hlabels : ∀ l ∈ labels, l ≠ [] ∧ l.length ≤ maxLabelSize) :
    (encodeLabels known labels).length ≤ labelsSize labels := by
  induction labels with
  | nil => exact Nat.le_refl 1
  | cons label labels ih =>
      obtain ⟨⟨hne, -⟩, hlabels⟩ := List.forall_mem_cons.1 hlabels
      have hpos : 0 < label.length := List.length_pos_iff.2 hne
      rw [labelsSize_cons]
      cases hlookup : known.lookup (label :: labels) with
      | some target =>
          rw [encodeLabels_of_lookup hlookup, length_ofNat]
          omega
      | none =>
          have hrest := ih hlabels
          rw [encodeLabels_of_new hlookup, List.length_append, List.length_cons]
          omega

end DomainName

/-! ### Writers -/

namespace Writer

open DomainName (AllStand Endings)

/-- The position after what is written. -/
def stop (w : Writer) (pos : Nat) (known : Endings) : Nat :=
  pos + (w pos known).octets.length

/-- At a position, the writer writes all it has to, within the size of a message. -/
structure Fits (w : Writer) (pos : Nat) (known : Endings) : Prop where
  isWhole : (w pos known).isFlawed = false
  reach_le : (w pos known).reach ≤ Message.maxSize

/-- What fits stands in a message, and the endings that are known at its position stand before
it. -/
structure Stands (w : Writer) (message : List UInt8) (pos : Nat) (known : Endings) : Prop
    extends w.Fits pos known where
  standsAt : StandsAt message pos (w pos known).octets
  known_stand : AllStand message pos known

/-- After what is written, the endings that are known then stand in the message. -/
def Keeps (w : Writer) : Prop :=
  ∀ ⦃message pos known⦄, w.Stands message pos known →
    AllStand message (w.stop pos known) (w pos known).endings

variable {a b w : Writer} {ws : List Writer} {message os : List UInt8} {pos : Nat}
  {known : Endings}

/-! #### Two things, one after the other -/

theorem andThen_of_isFlawed (h : (a pos known).isFlawed = true) :
    a.andThen b pos known = a pos known := by
  rw [andThen, if_pos h]

theorem andThen_of_isWhole (h : (a pos known).isFlawed = false) :
    a.andThen b pos known =
      { b (a.stop pos known) (a pos known).endings with
        octets := (a pos known).octets ++ (b (a.stop pos known) (a pos known).endings).octets
        reach := max (a pos known).reach (b (a.stop pos known) (a pos known).endings).reach } := by
  rw [andThen, h]
  rfl

theorem isFlawed_andThen : (a.andThen b pos known).isFlawed = false ↔
    (a pos known).isFlawed = false ∧
      (b (a.stop pos known) (a pos known).endings).isFlawed = false := by
  cases h : (a pos known).isFlawed with
  | true => simp [andThen_of_isFlawed h, h]
  | false => simp [andThen_of_isWhole h]

theorem stop_andThen (h : (a pos known).isFlawed = false) :
    (a.andThen b).stop pos known = b.stop (a.stop pos known) (a pos known).endings := by
  rw [stop, andThen_of_isWhole h, List.length_append, ← Nat.add_assoc]
  rfl

/-- What comes first is part of the whole. -/
theorem length_le_andThen (h : (a pos known).isFlawed = false) :
    (a pos known).octets.length ≤ (a.andThen b pos known).octets.length := by
  rw [andThen_of_isWhole h, List.length_append]
  exact Nat.le_add_right _ _

theorem fits_andThen : (a.andThen b).Fits pos known ↔
    a.Fits pos known ∧ b.Fits (a.stop pos known) (a pos known).endings := by
  constructor
  · rintro ⟨hwhole, hreach⟩
    obtain ⟨ha, hb⟩ := isFlawed_andThen.1 hwhole
    rw [andThen_of_isWhole ha] at hreach
    obtain ⟨hfront, hback⟩ := Nat.max_le.1 hreach
    exact ⟨⟨ha, hfront⟩, ⟨hb, hback⟩⟩
  · rintro ⟨⟨ha, hfront⟩, ⟨hb, hback⟩⟩
    refine ⟨isFlawed_andThen.2 ⟨ha, hb⟩, ?_⟩
    rw [andThen_of_isWhole ha]
    exact Nat.max_le.2 ⟨hfront, hback⟩

theorem Stands.first (h : (a.andThen b).Stands message pos known) :
    a.Stands message pos known := by
  have hfits := (fits_andThen.1 h.toFits).1
  have hstands := h.standsAt
  rw [andThen_of_isWhole hfits.isWhole] at hstands
  exact ⟨hfits, (standsAt_append.1 hstands).1, h.known_stand⟩

theorem Stands.second (h : (a.andThen b).Stands message pos known) (ha : a.Keeps) :
    b.Stands message (a.stop pos known) (a pos known).endings := by
  have hstands := h.standsAt
  rw [andThen_of_isWhole h.first.isWhole] at hstands
  exact ⟨(fits_andThen.1 h.toFits).2, (standsAt_append.1 hstands).2, ha h.first⟩

theorem Keeps.andThen (ha : a.Keeps) (hb : b.Keeps) : (a.andThen b).Keeps := by
  intro message pos known h
  have hwhole := h.first.isWhole
  rw [stop_andThen hwhole, andThen_of_isWhole hwhole]
  exact hb (h.second ha)

/-! #### Writers that keep what is known -/

theorem keeps_of_endings_eq (h : ∀ {message pos known}, w.Stands message pos known →
    (w pos known).endings = known) : w.Keeps := by
  intro message pos known hstands
  rw [h hstands]
  exact hstands.known_stand.mono (Nat.le_add_right pos _)

@[simp] theorem keeps_octets (os : List UInt8) : (octets os).Keeps :=
  keeps_of_endings_eq fun _ => rfl

@[simp] theorem keeps_word16 (n : UInt16) : (word16 n).Keeps :=
  keeps_octets _

@[simp] theorem keeps_word32 (n : UInt32) : (word32 n).Keeps :=
  keeps_octets _

theorem text_of_length_lt {string : List UInt8} (h : string.length < 256) :
    text string = octets (UInt8.ofNat string.length :: string) := by
  funext pos known
  rw [text, if_pos h]

theorem isFlawed_text {string : List UInt8} :
    (text string pos known).isFlawed = false ↔ string.length < 256 := by
  rw [text]
  split
  · rename_i h
    exact iff_of_true rfl h
  · rename_i h
    exact iff_of_false nofun h

@[simp] theorem keeps_text (string : List UInt8) : (text string).Keeps := by
  intro message pos known h
  have hshort := isFlawed_text.1 h.isWhole
  rw [text_of_length_lt hshort] at h ⊢
  exact keeps_octets _ h

@[simp] theorem keeps_name (n : DomainName) : (name n).Keeps := by
  intro message pos known h
  have hstop : pos ≤ (name n).stop pos known := Nat.le_add_right pos _
  show AllStand message _ (if _ then _ else _)
  split
  · rename_i hend
    refine List.forall_mem_append.2 ⟨h.known_stand.mono hstop, ?_⟩
    exact DomainName.endingStands_of_mem_newEndings h.known_stand n.areLabels.1 (Nat.le_refl pos)
      (Nat.le_of_lt hend) (Nat.le_refl _) h.standsAt
  · exact h.known_stand.mono hstop

theorem all_cons (w : Writer) (ws : List Writer) : all (w :: ws) = w.andThen (all ws) := rfl

theorem stop_all_nil (pos : Nat) (known : Endings) : (all []).stop pos known = pos := rfl

@[simp] theorem isFlawed_octets : (octets os pos known).isFlawed = false := rfl

@[simp] theorem isFlawed_word16 (n : UInt16) : (word16 n pos known).isFlawed = false := rfl

@[simp] theorem isFlawed_word32 (n : UInt32) : (word32 n pos known).isFlawed = false := rfl

@[simp] theorem isFlawed_name (n : DomainName) : (name n pos known).isFlawed = false := rfl

@[simp] theorem isFlawed_measured :
    (w.measured pos known).isFlawed = (w (pos + 2) known).isFlawed := rfl

@[simp] theorem isFlawed_all_nil : (all [] pos known).isFlawed = false := rfl

theorem isFlawed_all_cons : (all (w :: ws) pos known).isFlawed = false ↔
    (w pos known).isFlawed = false ∧
      (all ws (w.stop pos known) (w pos known).endings).isFlawed = false :=
  isFlawed_andThen

theorem fits_all_cons : (all (w :: ws)).Fits pos known ↔
    w.Fits pos known ∧ (all ws).Fits (w.stop pos known) (w pos known).endings :=
  fits_andThen

/-- The first of some things that fit, and the place of the next one. -/
theorem Fits.first (h : (all (w :: ws)).Fits pos known) :
    w.Fits pos known ∧ ∃ pos' known', pos + (w pos known).octets.length = pos' ∧
      (w pos known).endings = known' ∧ (all ws).Fits pos' known' ∧
      (all (w :: ws) pos known).octets = (w pos known).octets ++ (all ws pos' known').octets := by
  obtain ⟨hw, hws⟩ := fits_all_cons.1 h
  refine ⟨hw, _, _, rfl, rfl, hws, ?_⟩
  rw [all_cons, andThen_of_isWhole hw.isWhole]
  rfl

theorem keeps_all (h : ∀ w ∈ ws, w.Keeps) : (all ws).Keeps := by
  induction ws with
  | nil => exact keeps_octets []
  | cons w ws ih =>
      obtain ⟨hw, hws⟩ := List.forall_mem_cons.1 h
      exact hw.andThen (ih hws)

theorem stop_measured (w : Writer) (pos : Nat) (known : Endings) :
    w.measured.stop pos known = w.stop (pos + 2) known := by
  show pos + (ofNat 2 _ ++ (w (pos + 2) known).octets).length = pos + 2 + _
  rw [List.length_append, length_ofNat, Nat.add_assoc]

theorem Stands.of_measured (h : w.measured.Stands message pos known) :
    w.Stands message (pos + 2) known := by
  refine ⟨⟨h.isWhole, h.reach_le⟩, ?_, h.known_stand.mono (Nat.le_add_right pos 2)⟩
  have hstands := (standsAt_append.1 h.standsAt).2
  rwa [length_ofNat] at hstands

theorem Keeps.measured (hw : w.Keeps) : w.measured.Keeps := by
  intro message pos known h
  rw [stop_measured]
  exact hw h.of_measured

/-! #### How far writers come -/

/-- A writer comes to the end of what it writes, and at most so many octets far. -/
def Within (w : Writer) (n : Nat) : Prop :=
  ∀ pos known, w.stop pos known ≤ (w pos known).reach ∧ (w pos known).reach ≤ pos + n

variable {m n : Nat}

theorem within_octets (os : List UInt8) : (octets os).Within os.length :=
  fun _ _ => ⟨Nat.le_refl _, Nat.le_refl _⟩

theorem within_word16 (n : UInt16) : (word16 n).Within 2 :=
  within_octets (ofWord16 n)

theorem within_word32 (n : UInt32) : (word32 n).Within 4 :=
  within_octets (ofWord32 n)

theorem within_text (string : List UInt8) : (text string).Within (string.length + 1) := by
  intro pos known
  by_cases h : string.length < 256
  · rw [text_of_length_lt h]
    exact within_octets (UInt8.ofNat string.length :: string) pos known
  · rw [stop, text, if_neg h]
    exact ⟨Nat.le_refl pos, Nat.le_add_right pos _⟩

theorem within_name (n : DomainName) : (name n).Within n.size := by
  intro pos known
  have hle := DomainName.length_encodeLabels_le known n.labels n.areLabels.1
  refine ⟨Nat.le_max_right _ _, Nat.max_le.2 ⟨?_, Nat.add_le_add_left hle pos⟩⟩
  exact Nat.add_le_add_left (Nat.sub_le _ 1) pos

theorem Within.andThen (ha : a.Within m) (hb : b.Within n) : (a.andThen b).Within (m + n) := by
  intro pos known
  have hfront := ha pos known
  cases h : (a pos known).isFlawed with
  | true =>
      rw [stop, andThen_of_isFlawed h]
      exact ⟨hfront.1, hfront.2.trans (by omega)⟩
  | false =>
      have hback := hb (a.stop pos known) (a pos known).endings
      rw [stop_andThen h, andThen_of_isWhole h]
      refine ⟨hback.1.trans (Nat.le_max_right _ _), Nat.max_le.2 ⟨?_, ?_⟩⟩ <;> omega

theorem within_all {α : Type} {f : α → Writer} {size : α → Nat} {xs : List α}
    (h : ∀ x ∈ xs, (f x).Within (size x)) : (all (xs.map f)).Within (xs.map size).sum := by
  induction xs with
  | nil => exact within_octets []
  | cons x xs ih =>
      obtain ⟨hx, hxs⟩ := List.forall_mem_cons.1 h
      exact hx.andThen (ih hxs)

/-- Of things that are each written in some octets, no more fit than there are octets. -/
theorem length_lt_of_fits {α : Type} {f : α → Writer} {size : α → Nat} {xs : List α}
    (hpos : ∀ x pos known, 0 < (f x pos known).octets.length)
    (hsize : ∀ x, (f x).Within (size x)) (h : (all (xs.map f)).Fits pos known) :
    xs.length < 65536 := by
  have hlength : xs.length ≤ (all (xs.map f) pos known).octets.length := by
    have hwhole := h.isWhole
    clear h
    induction xs generalizing pos known with
    | nil => exact Nat.zero_le _
    | cons x xs ih =>
        rw [List.map_cons, all_cons] at hwhole ⊢
        obtain ⟨hx, hxs⟩ := isFlawed_andThen.1 hwhole
        have hfirst := hpos x pos known
        have hrest := ih hxs
        rw [andThen_of_isWhole hx, List.length_append, List.length_cons]
        omega
  have hstop := (within_all fun x _ => hsize x) pos known |>.1.trans h.reach_le
  unfold stop Message.maxSize at hstop
  omega

theorem Within.mono (h : w.Within m) (hle : m ≤ n) : w.Within n := fun pos known =>
  ⟨(h pos known).1, (h pos known).2.trans (Nat.add_le_add_left hle pos)⟩

theorem Within.measured (hw : w.Within n) : w.measured.Within (2 + n) := by
  intro pos known
  rw [stop_measured]
  obtain ⟨hstop, hreach⟩ := hw (pos + 2) known
  exact ⟨hstop, hreach.trans_eq (Nat.add_assoc pos 2 n)⟩

/-- What is written stays so small that its length fits in two octets. -/
theorem Stands.nat?_of_measured (h : w.measured.Stands message pos known) (hw : w.Within n) :
    (Cursor.seek message pos).nat? 2 =
      some ((w (pos + 2) known).octets.length, .seek message (pos + 2)) := by
  have hreach := (hw (pos + 2) known).1.trans h.reach_le
  unfold stop Message.maxSize at hreach
  have hlt : (w (pos + 2) known).octets.length < 256 ^ 2 := show _ < 65536 by omega
  rw [(standsAt_append.1 h.standsAt).1.nat?, Nat.mod_eq_of_lt hlt]

end Writer

/-! ### Reading -/

/-- Where a writer has written, a thing is read, up to where it stopped. -/
def Reads {α : Type} (read : List UInt8 → Cursor → Option (α × Cursor)) (w : Writer) (x : α) :
    Prop :=
  ∀ ⦃message pos known⦄, w.Stands message pos known →
    read message (.seek message pos) = some (x, .seek message (w.stop pos known))

theorem reads_word16 (n : UInt16) : Reads (fun _ cursor => cursor.word16?) (.word16 n) n := by
  intro message pos known h
  have hread := h.standsAt.word16?
  rwa [← length_ofWord16 n] at hread

theorem reads_word32 (n : UInt32) : Reads (fun _ cursor => cursor.word32?) (.word32 n) n := by
  intro message pos known h
  have hread := h.standsAt.word32?
  rwa [← length_ofWord32 n] at hread

theorem reads_signed (n : Int32) : Reads (fun _ => readSigned) (.word32 n.toUInt32) n := by
  intro message pos known h
  show (Cursor.word32? _).map _ = _
  rw [show Cursor.word32? _ = _ from reads_word32 n.toUInt32 h]
  rfl

/-- Reading the first of some things that are written one after the other, up to where the next one
is written. -/
theorem Reads.first {α : Type} {read : List UInt8 → Cursor → Option (α × Cursor)} {w : Writer}
    {x : α} {ws : List Writer} {message : List UInt8} {pos : Nat} {known : DomainName.Endings}
    (hread : Reads read w x) (hw : w.Keeps) (h : (Writer.all (w :: ws)).Stands message pos known) :
    ∃ pos' known', read message (.seek message pos) = some (x, .seek message pos') ∧
      (Writer.all ws).Stands message pos' known' ∧
      (Writer.all (w :: ws)).stop pos known = (Writer.all ws).stop pos' known' :=
  ⟨_, _, hread h.first, h.second hw, Writer.stop_andThen h.first.isWhole⟩

/-- Things that are written one after the other are read many times. -/
theorem reads_readMany {α β : Type} {read : List UInt8 → Cursor → Option (α × Cursor)}
    {write : β → Writer} {f : β → α} {ys : List β} (hkeeps : ∀ y ∈ ys, (write y).Keeps)
    (hreads : ∀ y ∈ ys, Reads read (write y) (f y)) :
    Reads (fun message => readMany (read message) ys.length) (.all (ys.map write)) (ys.map f) := by
  induction ys with
  | nil => exact fun _ _ _ _ => rfl
  | cons y ys ih =>
      intro message pos known h
      obtain ⟨hkeep, hkeeps⟩ := List.forall_mem_cons.1 hkeeps
      obtain ⟨hread, hreads⟩ := List.forall_mem_cons.1 hreads
      obtain ⟨_, _, hfirst, hstands, hstop⟩ := hread.first hkeep h
      have hrest := ih hkeeps hreads hstands
      simp only at hrest
      simp only [List.length_cons, List.map_cons, readMany, hfirst, hrest, hstop,
        Option.bind_eq_bind, Option.bind_some, Option.pure_def]

namespace DomainName

theorem read_encodeLabels {message : List UInt8} {pos : Nat} {known : Endings} (n : DomainName)
    (hknown : AllStand message pos known)
    (h : StandsAt message pos (encodeLabels known n.labels)) :
    read message (.seek message pos) =
      some (n.completed, .seek message (pos + (encodeLabels known n.labels).length)) := by
  have hlabels : readLabels message pos none (.seek message pos) = _ :=
    readLabels_encodeLabels hknown n.areLabels.1 nofun h
  have hname : ofLabels? true n.labels = some n.completed := dif_pos n.areLabels
  show (readLabels message pos none (.seek message pos)).bind _ = _
  rw [hlabels, Option.bind_some]
  show (ofLabels? true n.labels).bind _ = _
  rw [hname]
  rfl

theorem reads_read (n : DomainName) : Reads read (.name n) n.completed :=
  fun _ _ _ h => read_encodeLabels n h.known_stand h.standsAt

/-- A name that is written without pointers is read as well. -/
theorem reads_read_encode (n : DomainName) : Reads read (.octets n.encode) n.completed :=
  fun _ _ _ h => read_encodeLabels n nofun h.standsAt

end DomainName

end CachingResolver
