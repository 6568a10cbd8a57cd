import CachingResolver.Proofs.Cbor

/-!
# CBOR that is cut off

A reader stops where its item ends, so it reads the same item when more octets follow (`Extends`).
The bounds on the steps of a reader come from the number of octets that are left, and more octets
only raise them.  So of octets that are an item no shorter beginning is one (`read_take_eq_none`).
-/

namespace CachingResolver.Cbor

open CachingResolver.Text

/-- What a reader reads, another reads as well when more octets follow, and leaves these. -/
def Extends {α : Type} (read read' : List UInt8 → Option (α × List UInt8)) : Prop :=
  ∀ bs x rest, read bs = some (x, rest) → ∀ more, read' (bs ++ more) = some (x, rest ++ more)

section Extends

variable {α β : Type} {read read' : List UInt8 → Option (α × List UInt8)}

/-- When both readers go on with what is left, what follows the first item decides. -/
theorem Extends.bind (hread : Extends read read') {bs more : List UInt8} {y y' : β}
    {next next' : α × List UInt8 → Option β} (h : (read bs).bind next = some y)
    (hnext : ∀ x after, next (x, after) = some y → next' (x, after ++ more) = some y') :
    (read' (bs ++ more)).bind next' = some y' := by
  obtain ⟨⟨x, after⟩, hx, hy⟩ := Option.bind_eq_some_iff.1 h
  rw [hread bs x after hx more, Option.bind_some]
  exact hnext x after hy

theorem Extends.map (h : Extends read read') (f : α → β) :
    Extends (fun bs => (read bs).map fun (x, rest) => (f x, rest))
      (fun bs => (read' bs).map fun (x, rest) => (f x, rest)) := by
  intro bs y rest hread more
  obtain ⟨⟨x, after⟩, hx, heq⟩ := Option.map_eq_some_iff.1 hread
  cases heq
  exact Option.map_eq_some_iff.2 ⟨_, h _ _ _ hx more, rfl⟩

theorem extends_take? (n : Nat) : Extends (Octets.take? n) (Octets.take? n) := by
  intro bs front rest h more
  obtain ⟨rfl, rfl⟩ := Octets.length_of_take? h
  rw [List.append_assoc, Octets.take?_append]

theorem extends_readNat (width : Nat) : Extends (Octets.readNat width) (Octets.readNat width) :=
  (extends_take? width).map Octets.toNat

theorem extends_readHead : Extends readHead readHead := by
  intro bs head rest h more
  cases bs with
  | nil => cases h
  | cons b bs =>
      rw [List.cons_append]
      unfold readHead at h ⊢
      dsimp only at h ⊢
      split at h
      · rename_i hinfo
        rw [if_pos hinfo]
        split at h
        · cases h
        · rename_i hmajor
          cases h
          rw [if_neg hmajor]
      · rename_i hinfo
        rw [if_neg hinfo]
        obtain ⟨width, hwidth, h⟩ := Option.bind_eq_some_iff.1 h
        rw [hwidth, Option.bind_eq_bind, Option.bind_some]
        split at h
        · rename_i hzero
          cases h
          rw [if_pos hzero]
        · rename_i hzero
          rw [if_neg hzero]
          refine (extends_readNat width).bind h fun n after h => ?_
          cases h
          rfl

theorem extends_readChunks (major : Nat) (check : List UInt8 → Bool) {fuel fuel' : Nat}
    (hfuel : fuel ≤ fuel') (openStrings : Nat) :
    Extends (readChunks major check fuel openStrings)
      (readChunks major check fuel' openStrings) := by
  induction fuel generalizing fuel' openStrings with
  | zero => exact nofun
  | succ fuel ih =>
      obtain ⟨fuel', rfl⟩ : ∃ n, fuel' = n + 1 := ⟨fuel' - 1, by omega⟩
      have hless : fuel ≤ fuel' := Nat.le_of_succ_le_succ hfuel
      intro bs chunks rest h more
      unfold readChunks at h ⊢
      refine extends_readHead.bind h fun head after h => ?_
      dsimp only at h ⊢
      split at h
      · rename_i hbreak
        rw [if_pos hbreak]
        split at h
        · rename_i hlast
          cases h
          rw [if_pos hlast]
        · rename_i hlast
          rw [if_neg hlast]
          exact ih hless _ _ _ _ h more
      · rename_i hbreak
        rw [if_neg hbreak]
        split at h
        · rename_i hmajor
          rw [if_pos hmajor]
          split at h
          · exact ih hless _ _ _ _ h more
          · rename_i n hvalue
            refine (extends_take? n).bind h fun chunk after h => ?_
            dsimp only at h ⊢
            split at h
            · rename_i hcheck
              rw [if_pos hcheck]
              refine (ih hless _).bind h fun chunks after h => ?_
              cases h
              rfl
            · cases h
        · cases h

theorem extends_readMany (h : Extends read read') (n : Nat) :
    Extends (readMany read n) (readMany read' n) := by
  induction n with
  | zero =>
      intro bs xs rest hread more
      cases hread
      rfl
  | succ n ih =>
      intro bs xs rest hread more
      refine h.bind hread fun x after hread => ?_
      refine ih.bind hread fun xs after hread => ?_
      cases hread
      rfl

/-- A reader that reads nothing from no octets tells an item from a break. -/
theorem extends_readUntilBreak (h : Extends read read') (hnil : read [] = none) {fuel fuel' : Nat}
    (hfuel : fuel ≤ fuel') :
    Extends (readUntilBreak read fuel) (readUntilBreak read' fuel') := by
  induction fuel generalizing fuel' with
  | zero => exact nofun
  | succ fuel ih =>
      obtain ⟨fuel', rfl⟩ : ∃ n, fuel' = n + 1 := ⟨fuel' - 1, by omega⟩
      intro bs xs rest hread more
      unfold readUntilBreak at hread ⊢
      cases bs with
      | nil =>
          dsimp only at hread
          rw [hnil] at hread
          cases hread
      | cons b bs =>
          rw [List.cons_append]
          split at hread
          · rename_i heq
            obtain ⟨rfl, rfl⟩ := List.cons.inj heq
            cases hread
            rfl
          · rename_i hbreak
            split
            · rename_i heq
              obtain ⟨rfl, -⟩ := List.cons.inj heq
              exact absurd rfl (hbreak bs)
            · refine h.bind hread fun x after hread => ?_
              refine (ih (Nat.le_of_succ_le_succ hfuel)).bind hread fun xs after hread => ?_
              cases hread
              rfl

theorem extends_readCounted (h : Extends read read') (hnil : read [] = none)
    (argument : Argument) : Extends (readCounted read argument) (readCounted read' argument) := by
  cases argument with
  | value n => exact extends_readMany h n
  | indefinite =>
      intro bs xs rest hread more
      refine extends_readUntilBreak h hnil ?_ bs xs rest hread more
      simp

end Extends

theorem extends_readPair {item item' : List UInt8 → Option (Item × List UInt8)}
    (h : Extends item item') : Extends (readPair item) (readPair item') := by
  intro bs pair rest hread more
  refine h.bind hread fun key after hread => ?_
  refine h.bind hread fun value after hread => ?_
  cases hread
  rfl

theorem extends_readScalar (head : Head) : Extends (readScalar head) (readScalar head) := by
  intro bs item rest h more
  have hlength : bs.length ≤ (bs ++ more).length := by simp
  unfold readScalar at h ⊢
  split at h
  · cases h
    rfl
  · cases h
    rfl
  · exact (extends_take? _).map Item.bytes _ _ _ h more
  · exact (extends_readChunks 2 _ hlength 1).map Item.chunkedBytes _ _ _ h more
  · refine (extends_take? _).bind h fun octets after h => ?_
    obtain ⟨s, hs, h⟩ := Option.bind_eq_some_iff.1 h
    cases h
    exact Option.bind_eq_some_iff.2 ⟨s, hs, rfl⟩
  · refine (extends_readChunks 3 _ hlength 1).bind h fun octets after h => ?_
    obtain ⟨s, hs, h⟩ := Option.bind_eq_some_iff.1 h
    cases h
    exact Option.bind_eq_some_iff.2 ⟨s, hs, rfl⟩
  · split at h
    · rename_i hinfo
      split at h
      · rename_i hvalue
        cases h
        dsimp only
        rw [if_pos hinfo, if_pos hvalue]
      · cases h
    · rename_i hinfo
      cases h
      dsimp only
      rw [if_neg hinfo]
  · cases h

theorem readTags_append {fuel fuel' : Nat} (hfuel : fuel ≤ fuel') {tags found : List Nat}
    {head : Head} {bs rest : List UInt8} (h : readTags fuel tags bs = some (found, head, rest))
    (more : List UInt8) : readTags fuel' tags (bs ++ more) = some (found, head, rest ++ more) := by
  induction fuel generalizing fuel' tags bs with
  | zero => cases h
  | succ fuel ih =>
      obtain ⟨fuel', rfl⟩ : ∃ n, fuel' = n + 1 := ⟨fuel' - 1, by omega⟩
      unfold readTags at h ⊢
      cases hhead : readHead bs with
      | none =>
          rw [hhead] at h
          cases h
      | some p =>
          obtain ⟨next, after⟩ := p
          rw [hhead] at h
          rw [extends_readHead _ _ _ hhead more]
          dsimp only at h ⊢
          split at h
          · exact ih (Nat.le_of_succ_le_succ hfuel) h
          · cases h
            rfl

theorem extends_readBody {part part' : List UInt8 → Option (Item × List UInt8)}
    (h : Extends part part') (hnil : part [] = none) (head : Head) :
    Extends (readBody part head) (readBody part' head) := by
  intro bs item rest hread more
  have hpair : readPair part [] = none := by rw [readPair, hnil]; rfl
  unfold readBody at hread ⊢
  split at hread
  · rename_i harray
    rw [if_pos harray]
    exact (extends_readCounted h hnil _).map Item.array _ _ _ hread more
  · rename_i harray
    rw [if_neg harray]
    split at hread
    · rename_i hmap
      rw [if_pos hmap]
      exact (extends_readCounted (extends_readPair h) hpair _).map Item.map _ _ _ hread more
    · rename_i hmap
      rw [if_neg hmap]
      exact extends_readScalar head _ _ _ hread more

theorem readNested_nil (size depth : Nat) : readNested size depth [] = none := by
  cases size <;> cases depth <;> rfl

theorem extends_readNested {size size' : Nat} (hsize : size ≤ size') (depth : Nat) :
    Extends (readNested size depth) (readNested size' depth) := by
  induction depth with
  | zero =>
      intro bs item rest h more
      unfold readNested at h ⊢
      obtain ⟨⟨tags, head, after⟩, htags, h⟩ := Option.bind_eq_some_iff.1 h
      rw [readTags_append hsize htags more]
      refine (extends_readScalar head).bind h fun item after h => ?_
      cases h
      rfl
  | succ depth ih =>
      intro bs item rest h more
      unfold readNested at h ⊢
      obtain ⟨⟨tags, head, after⟩, htags, h⟩ := Option.bind_eq_some_iff.1 h
      rw [readTags_append hsize htags more]
      refine (extends_readBody ih (readNested_nil size depth) head).bind h fun item after h => ?_
      cases h
      rfl

/-- An item is read in the same way when more octets follow. -/
theorem read_append {bs rest : List UInt8} {item : Item} (h : read bs = some (item, rest))
    (more : List UInt8) : read (bs ++ more) = some (item, rest ++ more) :=
  extends_readNested (by simp) maxDepth _ _ _ h more

/-- Of octets that are an item, no shorter beginning is one. -/
theorem read_take_eq_none {bs : List UInt8} {item : Item} (h : read bs = some (item, [])) {n : Nat}
    (hn : n < bs.length) : read (bs.take n) = none := by
  cases hread : read (bs.take n) with
  | none => rfl
  | some p =>
      obtain ⟨other, rest⟩ := p
      have hwhole := read_append hread (bs.drop n)
      rw [List.take_append_drop, h] at hwhole
      have hlength := congrArg List.length (Prod.mk.inj (Option.some.inj hwhole)).2
      rw [List.length_append, List.length_drop, List.length_nil] at hlength
      omega

end CachingResolver.Cbor
