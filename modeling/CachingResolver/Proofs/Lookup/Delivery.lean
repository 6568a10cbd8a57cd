import CachingResolver.Proofs.Cache.Trail
import CachingResolver.Proofs.Lookup.FromCache
import CachingResolver.Proofs.Lookup.RootFallback

/-!
# What an answer keeps of what was delivered

The answer to a question is composed from the cache when the run of the lookup has ended, and not
from the responses themselves.  `Move.lastDelivery?` is what the last response of a course that
stores something under a key stores there.  The key answers with it at the end of the course exactly
when no failure was on record for the key as the response arrived, and the entry has not outlived
its time by then (`found?_course_iff`).

So of a trail of aliases and records that were all delivered, the answer is lost as soon as one of
them is: an alias with a time to live of zero does not last until the next second.
-/

namespace CachingResolver

open CachingResolver.Cache

/-- An entry that a response stores. -/
structure Delivery where
  key : String
  entry : Entry
  -- The zone of which a server was asked.
  zone : Zone
  -- The cache as the response arrived.
  received : Cache

namespace Inquiry

variable {σ : Type} {env : Environment σ} {port : UInt16} {current : Question} {s : Search}
  {w : World σ} (x : Inquiry env port current s w) {key : String} {e : Entry} {g : RecordSet}

def deliveryOf (g : RecordSet) : Delivery where
  key := g.key
  entry := x.entryOf g
  zone := x.zone
  received := x.received

theorem eq_entryOf_of_get?_after (hg : g ∈ x.stored)
    (h : x.after.positive.get? g.key = some e) : e = x.entryOf g := by
  have hwritten := x.sweeps_after.positive_get? h
  have hstored := x.received.get?_storeAll_of_mem x.arrival.rttMs x.nodup_keys_stored hg
  rw [Search.written_positive] at hwritten
  exact Option.some.inj (hwritten.symm.trans hstored)

/-- A failure on record for a key hides what is stored there. -/
theorem hidden_after_of_failure (hg : g ∈ x.stored) (h : ¬ x.received.NoFailure g.key) :
    x.after.Hidden g.key := by
  refine x.sweeps_after.hidden fun hnone => absurd ?_ h
  rw [Search.written_of_refusal?_eq_none (x.refusal?_eq_none_of_mem_stored hg)] at hnone
  exact (noFailure_storeAll _ _ _).1 hnone

/-- A refusal of a question is a failure on record for it. -/
theorem hidden_after_of_refusal (h : Search.refusal? current x.message ≠ none) :
    x.after.Hidden (makeKey current.name current.type) := by
  obtain ⟨reason, hreason⟩ := Option.ne_none_iff_exists'.1 h
  refine x.sweeps_after.hidden fun hnone => ?_
  rw [Search.written_of_refusal? hreason] at hnone
  have hvacant := hnone _ (Table.get?_insert_self _ _ _)
  rw [isVacant_eq_false (List.cons_ne_nil _ _)] at hvacant
  cases hvacant

/-- A key under which nothing is stored stays hidden. -/
theorem hidden_after_of_not_stored (hnone : ∀ g ∈ x.stored, g.key ≠ key)
    (h : w.cache.Hidden key) : x.after.Hidden key := by
  by_cases hwrites : x.Writes key
  · rcases hwrites with ⟨g, hg, hkey⟩ | ⟨hrefusal, rfl⟩
    · exact absurd hkey (hnone g hg)
    · exact x.hidden_after_of_refusal hrefusal
  · exact x.hidden_after hwrites (x.sweeps_cache.hidden h)

end Inquiry

namespace Move

variable {σ : Type} (env : Environment σ)

/-- What the response of a move stores. -/
def deliveries (w : World σ) : Move → List Delivery
  | step port current s =>
    match Iterative.response? env port current s w with
    | some r =>
      (Search.setsOf current r.zone r.message).map fun g =>
        { key := g.key, entry := r.cache.freshEntry r.rttMs g, zone := r.zone, received := r.cache }
    | none => []
  | _ => []

/-- The last of all deliveries under a key. -/
def lastDelivery? (key : String) (w : World σ) : List Move → Option Delivery
  | [] => none
  | m :: ms =>
    (lastDelivery? key (m.apply env w) ms).or ((m.deliveries env w).find? (·.key == key))

variable {env} {w : World σ} {m : Move} {ms : List Move} {key : String} {e : Entry} {d : Delivery}

theorem deliveries_of_inquiry {port : UInt16} {current : Question} {s : Search}
    (x : Inquiry env port current s w) :
    (step port current s).deliveries env w = x.stored.map x.deliveryOf := by
  unfold deliveries
  dsimp only
  rw [x.response?_eq]
  rfl

theorem not_stored_of_deliveries {port : UInt16} {current : Question} {s : Search}
    (x : Inquiry env port current s w)
    (hnone : ∀ d ∈ (step port current s).deliveries env w, d.key ≠ key) :
    ∀ g ∈ x.stored, g.key ≠ key := by
  intro g hg hkey
  rw [deliveries_of_inquiry x] at hnone
  exact hnone (x.deliveryOf g) (List.mem_map_of_mem hg) hkey

theorem exists_inquiry_of_mem_deliveries (h : d ∈ m.deliveries env w) :
    ∃ port current s, ∃ x : Inquiry env port current s w, m = .step port current s ∧
      ∃ g ∈ x.stored, d = x.deliveryOf g := by
  cases m with
  | wait seconds => cases h
  | compose q exchanges server => cases h
  | step port current s =>
      cases hresponse : Iterative.response? env port current s w with
      | none =>
          unfold deliveries at h
          dsimp only at h
          rw [hresponse] at h
          cases h
      | some r =>
          obtain ⟨x, -⟩ := Inquiry.exists_of_response? hresponse
          rw [deliveries_of_inquiry x] at h
          obtain ⟨g, hg, rfl⟩ := List.mem_map.1 h
          exact ⟨port, current, s, x, rfl, g, hg, rfl⟩

/-! ### While nothing is delivered -/

theorem positive_get?_apply (hnone : ∀ d ∈ m.deliveries env w, d.key ≠ key)
    (h : (m.apply env w).cache.positive.get? key = some e) :
    w.cache.positive.get? key = some e := by
  cases m with
  | wait seconds => exact h
  | compose q exchanges server =>
      have hsweeps := sweeps_compose w.cache q exchanges server
      exact hsweeps.positive_get? h
  | step port current s =>
      rcases Iterative.step_cases env port current s w with ⟨d, elapsed, hd, hafter⟩ | ⟨⟨x⟩⟩
      · have h : (Iterative.step env port current s w).2.cache.positive.get? key = some e := h
        rw [hafter] at h
        exact hd.positive_get? h
      · rcases x.positive_get?_after h with hbefore | ⟨g, hg, hkey, -⟩
        · exact hbefore
        · exact absurd hkey (not_stored_of_deliveries x hnone g hg)

theorem hidden_apply (hnone : ∀ d ∈ m.deliveries env w, d.key ≠ key) (h : w.cache.Hidden key) :
    (m.apply env w).cache.Hidden key := by
  cases m with
  | wait seconds => exact h
  | compose q exchanges server =>
      have hsweeps := sweeps_compose w.cache q exchanges server
      exact hsweeps.hidden h
  | step port current s =>
      rcases Iterative.step_cases env port current s w with ⟨d, elapsed, hd, hafter⟩ | ⟨⟨x⟩⟩
      · show (Iterative.step env port current s w).2.cache.Hidden key
        rw [hafter]
        exact hd.hidden h
      · exact x.hidden_after_of_not_stored (not_stored_of_deliveries x hnone) h

theorem lastDelivery?_cons_eq_none_iff :
    lastDelivery? env key w (m :: ms) = none ↔
      lastDelivery? env key (m.apply env w) ms = none ∧ ∀ d ∈ m.deliveries env w, d.key ≠ key := by
  simp [lastDelivery?]

theorem positive_get?_course (hnone : lastDelivery? env key w ms = none)
    (h : (course env w ms).cache.positive.get? key = some e) :
    w.cache.positive.get? key = some e := by
  induction ms generalizing w with
  | nil => exact h
  | cons m ms ih =>
      obtain ⟨hlater, hnow⟩ := lastDelivery?_cons_eq_none_iff.1 hnone
      exact positive_get?_apply hnow (ih hlater h)

theorem hidden_course (hnone : lastDelivery? env key w ms = none) (h : w.cache.Hidden key) :
    (course env w ms).cache.Hidden key := by
  induction ms generalizing w with
  | nil => exact h
  | cons m ms ih =>
      obtain ⟨hlater, hnow⟩ := lastDelivery?_cons_eq_none_iff.1 hnone
      exact ih hlater (hidden_apply hnow h)

theorem unreplaced_of_lastDelivery?_eq_none (hnone : lastDelivery? env key w ms = none)
    (e : Entry) : Unreplaced env (fun k f => k = key ∧ f = e) w ms := by
  induction ms generalizing w with
  | nil => trivial
  | cons m ms ih =>
      obtain ⟨hlater, hnow⟩ := lastDelivery?_cons_eq_none_iff.1 hnone
      refine ⟨?_, ih hlater⟩
      rintro ⟨port, current, s, x, rfl, g, hg, f, ⟨hkey, -⟩, -⟩
      exact not_stored_of_deliveries x hnow g hg hkey

/-- An entry that can be read is there as long as it lives, when nothing is delivered under its
key. -/
theorem found?_course_of_undelivered (hnone : lastDelivery? env key w ms = none)
    (hforward : Forward env w ms) (hfound : w.cache.found? key = some e) (hne : e.values ≠ [])
    (hfrom : e.storedAt.toInt ≤ w.cache.now.toInt)
    (hspan : (course env w ms).cache.now.toInt - e.storedAt.toInt < 2 ^ 63) :
    (course env w ms).cache.found? key = some e ↔
      (course env w ms).cache.now.toInt ≤ e.storedAt.toInt + e.ttl.toNat := by
  have hlast := now_le_now_course hforward
  have hlater : e.storedAt.toInt ≤ (course env w ms).cache.now.toInt :=
    Int.le_trans hfrom (Int64.le_iff_toInt_le.1 hlast)
  constructor
  · intro hend
    obtain ⟨-, -, -, hlive⟩ := found?_eq_some_iff.1 hend
    exact (Entry.isExpired_eq_false_iff hlater hspan).1 hlive
  · intro hto
    have hlasting : Lasting (fun k f => k = key ∧ f = e) w.cache.now (course env w ms).cache.now :=
      { values_ne_nil := by rintro _ _ ⟨rfl, rfl⟩; exact hne
        stored := by rintro _ _ ⟨rfl, rfl⟩; exact hfrom
        deadline_le := by rintro _ _ ⟨rfl, rfl⟩; exact hto }
    have hholds : Holds (fun k f => k = key ∧ f = e) w.cache := by
      rintro _ _ ⟨rfl, rfl⟩
      obtain ⟨hfailure, hpositive, -, -⟩ := found?_eq_some_iff.1 hfound
      exact ⟨hfailure, hpositive⟩
    have hend := (throughout_holds_iff hlasting hholds hforward (Int64.le_refl _)).2
      (unreplaced_of_lastDelivery?_eq_none hnone e)
    exact (hlasting.later hlast).found? hend.last (Int64.le_refl _) (Int64.le_refl _) ⟨rfl, rfl⟩

theorem found?_course_of_inquiry {port : UInt16} {current : Question} {s : Search}
    (x : Inquiry env port current s w) {g : RecordSet} (hg : g ∈ x.stored)
    (hnone : lastDelivery? env g.key ((step port current s).apply env w) ms = none)
    (hforward : Forward env ((step port current s).apply env w) ms)
    (hspan : (course env ((step port current s).apply env w) ms).cache.now.toInt -
      ((step port current s).apply env w).cache.now.toInt < 2 ^ 63) :
    (course env ((step port current s).apply env w) ms).cache.found? g.key = some e ↔
      e = x.entryOf g ∧ x.received.NoFailure g.key ∧
        (course env ((step port current s).apply env w) ms).cache.now.toInt ≤
          e.storedAt.toInt + e.ttl.toNat := by
  have hafter : ((step port current s).apply env w).cache = x.after := rfl
  have hstamp : (x.entryOf g).storedAt = ((step port current s).apply env w).cache.now :=
    x.now_after.symm
  have hne : (x.entryOf g).values ≠ [] := x.values_ne_nil_of_mem_stored hg
  -- Only what was stored under the key can be there at the end.
  have honly : ∀ f,
      (course env ((step port current s).apply env w) ms).cache.found? g.key = some f →
        f = x.entryOf g := by
    intro f hf
    obtain ⟨-, hpositive, -, -⟩ := found?_eq_some_iff.1 hf
    exact x.eq_entryOf_of_get?_after hg (hafter ▸ positive_get?_course hnone hpositive)
  by_cases hfailure : x.received.NoFailure g.key
  · have hfound := (x.found?_after_of_mem_stored hg).2 ⟨hfailure, rfl⟩
    rw [← hstamp] at hspan
    have hkept := found?_course_of_undelivered hnone hforward (hafter ▸ hfound) hne
      (Int.le_of_eq (congrArg Int64.toInt hstamp)) hspan
    constructor
    · intro hend
      obtain rfl := honly e hend
      exact ⟨rfl, hfailure, hkept.1 hend⟩
    · rintro ⟨rfl, -, hto⟩
      exact hkept.2 hto
  · constructor
    · intro hend
      have hhidden := hidden_course hnone (hafter ▸ x.hidden_after_of_failure hg hfailure)
      rw [honly e hend] at hend
      exact absurd (values_eq_nil_of_hidden hhidden hend) hne
    · rintro ⟨-, hnoFailure, -⟩
      exact absurd hnoFailure hfailure

/-- At the end of a course a key answers with what was delivered last exactly when no failure was on
record for it as that arrived, and its time to live has not passed since. -/
theorem found?_course_iff (hd : lastDelivery? env key w ms = some d) (hforward : Forward env w ms)
    (hspan : (course env w ms).cache.now.toInt - w.cache.now.toInt < 2 ^ 63) :
    (course env w ms).cache.found? key = some e ↔
      e = d.entry ∧ d.received.NoFailure key ∧
        (course env w ms).cache.now.toInt ≤ e.storedAt.toInt + e.ttl.toNat := by
  induction ms generalizing w with
  | nil => cases hd
  | cons m ms ih =>
      obtain ⟨hstep, hrest⟩ := hforward
      have hcourse : course env w (m :: ms) = course env (m.apply env w) ms := rfl
      rw [hcourse] at hspan ⊢
      have hrestSpan : (course env (m.apply env w) ms).cache.now.toInt -
          (m.apply env w).cache.now.toInt < 2 ^ 63 := by
        have hle := Int64.le_iff_toInt_le.1 hstep
        omega
      rcases Option.or_eq_some_iff.1 hd with hlater | ⟨hlater, hnow⟩
      · exact ih hlater hrest hrestSpan
      · obtain ⟨port, current, s, x, rfl, g, hg, rfl⟩ :=
          exists_inquiry_of_mem_deliveries (List.mem_of_find?_eq_some hnow)
        obtain rfl : g.key = key := by
          simpa [Inquiry.deliveryOf] using List.find?_some hnow
        exact found?_course_of_inquiry x hg hlater hrest hrestSpan

end Move

/-! ### The answer -/

namespace Iterative

variable {σ : Type} {env : Environment σ} {r : Iterative} {q : Question} {s : Search}
  {w v : World σ} {trail : List Filed}

/-- What a lookup is delivered last under a key. -/
def delivery? (r : Iterative) (env : Environment σ) (q : Question) (w : World σ) (key : String) :
    Option Delivery :=
  Move.lastDelivery? env key w (runMoves env r.port r.maxSteps (.start q) w)

/-- When aliases and records that lead from its question have been delivered to a lookup, and its
run ends without a failure, it gives these as its answer exactly when each of them was stored
without a failure on record for its key and has not outlived its time when the run ends, and no name
with an alias has records of the type asked for. -/
theorem lookup_of_delivered_iff
    (hforward : Move.Forward env w (runMoves env r.port r.maxSteps (.start q) w))
    (hrun : run env r.port q r.maxSteps (.start q) w = (.ok s, v))
    (hspan : v.cache.now.toInt - w.cache.now.toInt < 2 ^ 63)
    (htrail : Trail (fun key => (r.delivery? env q w key).map (·.entry)) q.type q.name trail)
    (hlength : trail.length ≤ maxAliases + 1) :
    (r.lookup env q w).1 = .ok
        { records := trail.flatMap (·.records v.cache.now)
          isCacheHit := s.exchanges == 0
          aliases := trail.tail.map (·.name)
          server := s.lastServer } ↔
      (∀ p ∈ trail, v.cache.now.toInt ≤ p.entry.storedAt.toInt + p.entry.ttl.toNat ∧
        ∀ d, r.delivery? env q w p.key = some d → d.received.NoFailure p.key) ∧
      ∀ p ∈ trail.dropLast, v.cache.found? (makeKey p.name q.type) = none := by
  have hend : v = Move.course env w (runMoves env r.port r.maxSteps (.start q) w) := by
    rw [← run_snd, hrun]
  have hkept : ∀ {key d e}, r.delivery? env q w key = some d →
      (v.cache.found? key = some e ↔ e = d.entry ∧ d.received.NoFailure key ∧
        v.cache.now.toInt ≤ e.storedAt.toInt + e.ttl.toNat) := by
    intro key d e hd
    rw [hend] at hspan ⊢
    exact Move.found?_course_iff hd hforward hspan
  have hdelivered : ∀ p ∈ trail, ∃ d, r.delivery? env q w p.key = some d ∧ d.entry = p.entry :=
    fun p hp => Option.map_eq_some_iff.1 (htrail.filed?_of_mem hp)
  constructor
  · intro hok
    obtain ⟨t, u, hrun', hcompose⟩ := lookup_eq_ok_iff.1 hok
    obtain ⟨hsame, rfl⟩ := Prod.mk.inj (hrun.symm.trans hrun')
    obtain ⟨records, aliases, hfollow, hresolution⟩ := compose_eq_ok_iff.1 hcompose
    obtain ⟨other, hother, -, hnone, hfound⟩ := follow?_eq_some_iff.1 hfollow
    obtain ⟨rfl, rfl⟩ := Prod.mk.inj hfound
    have hnames := (Resolution.mk.inj hresolution).2.2.1
    refine ⟨fun p hp => ?_, fun p hp => ?_⟩
    · obtain ⟨d, hd, hentry⟩ := hdelivered p hp
      obtain ⟨p', hp', hname, htype⟩ := htrail.exists_same_of_names hother hnames hp
      have hkey : p'.key = p.key := by
        unfold Filed.key
        rw [hname, htype]
      have hp' := hother.filed?_of_mem hp'
      rw [hkey] at hp'
      obtain ⟨hsame, hfailure, hto⟩ := (hkept hd).1 hp'
      rw [hsame, hentry] at hto
      exact ⟨hto, fun d' hd' => Option.some.inj (hd.symm.trans hd') ▸ hfailure⟩
    · obtain ⟨p', hp', hname⟩ := htrail.exists_alias_of_names hother hnames hp
      rw [← hname]
      exact hnone p' hp'
  · rintro ⟨hlive, hnone⟩
    have hfound : Trail v.cache.found? q.type q.name trail := by
      refine htrail.congr fun p hp => ?_
      obtain ⟨d, hd, hentry⟩ := hdelivered p hp
      obtain ⟨hto, hfailure⟩ := hlive p hp
      exact (hkept hd).2 ⟨hentry.symm, hfailure d hd, hto⟩
    refine lookup_eq_ok_iff.2 ⟨s, v, hrun, ?_⟩
    exact compose_fst_of_follow? (follow?_eq_some_iff.2 ⟨trail, hfound, hlength, hnone, rfl⟩)

end Iterative

/-! ### An alias that lasts no second -/

/-- The outside in which given things come back, one after the other. -/
def Environment.replaying : Environment (List Arrival) where
  draw arrivals := ({}, arrivals)
  exchange arrivals _ _ :=
    match arrivals with
    | [] => ({ outcome := .error (.timeout "198.51.100.1:53") }, [])
    | arrival :: rest => (arrival, rest)

namespace Iterative

/-- A root server answers with an alias of a given time to live, and a second later with the address
of its target. -/
def aliasWorld (ttl : UInt32) : World (List Arrival) where
  cache := Move.hintedWorld.cache
  outside :=
    [{ outcome := .ok
        { isResponse := true
          answers :=
            [{ owner := .ofTexts ["alias", "example", "com"], ttl
               data := .cname (.ofTexts ["target", "example", "com"]) }] } },
     { outcome := .ok
        { isResponse := true
          answers :=
            [{ owner := .ofTexts ["target", "example", "com"], ttl := 300
               data := .a ⟨192, 0, 2, 5⟩ }] }
       elapsed := 1 }]

def aliasTrail (ttl : UInt32) : List Filed :=
  [{ name := "alias.example.com.", type := .cname
     entry := { values := ["target.example.com."], ttl } },
   { name := "target.example.com.", type := .a
     entry := { values := ["192.0.2.5"], ttl := 300, storedAt := 1 } }]

/-- The theorem at work: an alias that lasts for a second is part of the answer. -/
theorem lookup_of_delivered_alias :
    ∃ resolution, (({} : Iterative).lookup .replaying aliasQuestion (aliasWorld 1)).1 =
        .ok resolution ∧
      resolution.records = (aliasTrail 1).flatMap (·.records 1) := by
  obtain ⟨hforward, hran, hnow, halias, haddress, hrecorded, hnone⟩ :
      Move.Forward .replaying (aliasWorld 1)
        (runMoves .replaying 53 64 (.start aliasQuestion) (aliasWorld 1)) ∧
      (run .replaying 53 aliasQuestion 64 (.start aliasQuestion) (aliasWorld 1)).1 = .ok
        { pending := {}
          chased := [.make "target.example.com." .a]
          exchanges := 2
          lastServer := some ⟨.v4 ⟨198, 51, 100, 1⟩, 53, 0⟩ } ∧
      (run .replaying 53 aliasQuestion 64 (.start aliasQuestion) (aliasWorld 1)).2.cache.now = 1 ∧
      (({} : Iterative).delivery? .replaying aliasQuestion (aliasWorld 1)
        (makeKey "alias.example.com." .cname)).map (·.entry) =
          some { values := ["target.example.com."], ttl := 1 } ∧
      (({} : Iterative).delivery? .replaying aliasQuestion (aliasWorld 1)
        (makeKey "target.example.com." .a)).map (·.entry) =
          some { values := ["192.0.2.5"], ttl := 300, storedAt := 1 } ∧
      (∀ p ∈ aliasTrail 1,
        (({} : Iterative).delivery? .replaying aliasQuestion (aliasWorld 1) p.key).map
          (·.received.negative.get? p.key) = some none) ∧
      ∀ p ∈ (aliasTrail 1).dropLast,
        (run .replaying 53 aliasQuestion 64 (.start aliasQuestion) (aliasWorld 1)).2.cache.found?
          (makeKey p.name aliasQuestion.type) = none := by decide +kernel
  have htrail : Trail
      (fun key => (({} : Iterative).delivery? .replaying aliasQuestion (aliasWorld 1) key).map
        (·.entry)) aliasQuestion.type aliasQuestion.name (aliasTrail 1) :=
    .along (by decide) halias rfl (.direct haddress)
  have hkept : ∀ p ∈ aliasTrail 1,
      (run .replaying 53 aliasQuestion 64 (.start aliasQuestion) (aliasWorld 1)).2.cache.now.toInt ≤
        p.entry.storedAt.toInt + p.entry.ttl.toNat ∧
      ∀ d, ({} : Iterative).delivery? .replaying aliasQuestion (aliasWorld 1) p.key = some d →
        d.received.NoFailure p.key := by
    intro p hp
    refine ⟨?_, fun d hd f hf => ?_⟩
    · rw [hnow]
      revert p
      decide
    · have hnone := hrecorded p hp
      rw [hd, Option.map_some, hf] at hnone
      cases hnone
  refine ⟨_, (lookup_of_delivered_iff hforward (Prod.ext hran rfl) ?_ htrail (by decide)).2
    ⟨hkept, hnone⟩, ?_⟩
  · rw [hnow]
    decide
  · rw [hnow]

/-- An alias with a time to live of zero is not, when a second passes before the address arrives. -/
theorem lost_expired_alias :
    ¬ ∀ (r : Iterative) (env : Environment (List Arrival)) (q : Question)
        (w : World (List Arrival)) (trail : List Filed),
        Move.Forward env w (runMoves env r.port r.maxSteps (.start q) w) →
        Trail (fun key => (r.delivery? env q w key).map (·.entry)) q.type q.name trail →
        (∀ p ∈ trail, ∃ d, r.delivery? env q w p.key = some d ∧
          Name.isSubdomain (Name.canonical p.name) d.zone.name = true) →
        trail.length ≤ maxAliases + 1 →
        (r.lookup env q w).1 ≠ .error (.stepLimit q.text) →
        ∃ resolution, (r.lookup env q w).1 = .ok resolution ∧
          resolution.aliases = trail.tail.map (·.name) ∧
          resolution.records = trail.flatMap (·.records (r.lookup env q w).2.cache.now) := by
  intro hclaim
  obtain ⟨hforward, halias, haddress, hzone, hlost⟩ :
      Move.Forward .replaying (aliasWorld 0)
        (runMoves .replaying 53 64 (.start aliasQuestion) (aliasWorld 0)) ∧
      (({} : Iterative).delivery? .replaying aliasQuestion (aliasWorld 0)
        (makeKey "alias.example.com." .cname)).map (·.entry) =
          some { values := ["target.example.com."], ttl := 0 } ∧
      (({} : Iterative).delivery? .replaying aliasQuestion (aliasWorld 0)
        (makeKey "target.example.com." .a)).map (·.entry) =
          some { values := ["192.0.2.5"], ttl := 300, storedAt := 1 } ∧
      (∀ p ∈ aliasTrail 0,
        (({} : Iterative).delivery? .replaying aliasQuestion (aliasWorld 0) p.key).any
          (fun d => Name.isSubdomain (Name.canonical p.name) d.zone.name) = true) ∧
      (({} : Iterative).lookup .replaying aliasQuestion (aliasWorld 0)).1 =
        .error (.unresolved aliasQuestion.text) := by decide +kernel
  have htrail : Trail
      (fun key => (({} : Iterative).delivery? .replaying aliasQuestion (aliasWorld 0) key).map
        (·.entry)) aliasQuestion.type aliasQuestion.name (aliasTrail 0) :=
    .along (by decide) halias rfl (.direct haddress)
  obtain ⟨resolution, hok, -⟩ := hclaim {} .replaying aliasQuestion (aliasWorld 0) (aliasTrail 0)
    hforward htrail (fun p hp => (Option.any_eq_true _ _).1 (hzone p hp)) (by decide)
    (by rw [hlost]; decide)
  rw [hlost] at hok
  cases hok

end Iterative

end CachingResolver
