import CachingResolver.Proofs.Cache.RootHints
import CachingResolver.Proofs.Lookup.AnswerScope
import CachingResolver.Proofs.Lookup.Course
import CachingResolver.Proofs.Lookup.Isolation

/-!
# The root as the last resort

Root hints are ordinary entries of the cache.  For a year after they have been loaded they are
there, the root can be reached, and no lookup fails for want of a zone, exactly as long as no
response puts another record set in their place.  Referrals never do that to the name servers of the
root; an answer does it when it leads from a question for name servers to the root along aliases
(`leads_to_root_of_mem_stored`).  Nothing protects the addresses of these servers.
-/

namespace CachingResolver

open CachingResolver.Cache

/-! ### Lookups that fail for want of a zone -/

theorem Search.isUnknown_of_prepare_eq_rootHints {draw : Draw} {port : UInt16} {current : Question}
    {s : Search} {c : Cache} {reason : String}
    (h : (prepare draw port current s c).1 = .impossible (.rootHints reason)) :
    (c.zoneFor current.name).1.isUnknown = true := by
  rcases prepare_cases draw port current s c with ⟨-, s', b, -, hsettled⟩ | ⟨-, b, hb, hquery⟩
  · rw [hsettled] at h
    cases h
  · obtain ⟨p, hchoice, hp⟩ := prepareQuery_choice draw port current s b
    rw [hquery, hp] at h
    dsimp only at h
    rw [h, hb.zoneFor_fst_eq] at hchoice
    generalize (c.zoneFor current.name).1 = zone at hchoice
    cases hchoice with
    | unknown hunknown => exact hunknown

namespace Iterative

variable {σ : Type} {env : Environment σ} {port : UInt16} {w : World σ}

theorem step_ne_rootHints {current : Question} {s : Search} {reason : String}
    (h : (w.cache.zoneFor current.name).1.isUnknown = false) :
    (step env port current s w).1 ≠ .error (.rootHints reason) := by
  intro hstep
  unfold step at hstep
  dsimp only at hstep
  cases hprepare : Search.prepare (env.draw w.outside).1 port current s w.cache with
  | mk preparation cache =>
      rw [hprepare] at hstep
      cases preparation with
      | settled s' => cases hstep
      | ask zone server query => cases hstep
      | impossible failure =>
          cases hstep
          have hunknown := Search.isUnknown_of_prepare_eq_rootHints (congrArg Prod.fst hprepare)
          rw [h] at hunknown
          cases hunknown

/-- Composing the answer does not fail for want of a zone. -/
theorem run_eq_rootHints_of_lookup {r : Iterative} {q : Question} {reason : String}
    (h : (r.lookup env q w).1 = .error (.rootHints reason)) :
    (run env r.port q r.maxSteps (.start q) w).1 = .error (.rootHints reason) := by
  unfold lookup at h
  cases hrun : run env r.port q r.maxSteps (.start q) w with
  | mk result v =>
      rw [hrun] at h
      cases result with
      | error failure =>
          cases h
          rfl
      | ok s =>
          dsimp only at h
          cases hfollow : v.cache.follow? q.type (maxAliases + 1) q.name with
          | some found =>
              rw [compose_fst_of_follow? hfollow] at h
              cases h
          | none =>
              rw [compose_fst_of_follow?_eq_none hfollow] at h
              split at h <;> cases h

/-- When no moment of a lookup finds a name without an enclosing zone, the lookup does not fail for
want of one. -/
theorem lookup_ne_rootHints {r : Iterative} {q : Question} {reason : String}
    (h : Move.Throughout env (fun v => ∀ name, (v.cache.zoneFor name).1.isUnknown = false) w
      (r.moves env q w)) : (r.lookup env q w).1 ≠ .error (.rootHints reason) := by
  intro hlookup
  have hrun := run_eq_rootHints_of_lookup hlookup
  have hsteps : Move.Throughout env
      (fun v => ∀ name, (v.cache.zoneFor name).1.isUnknown = false) w
      (runMoves env r.port r.maxSteps (.start q) w) := by
    unfold moves at h
    rw [hrun] at h
    exact h
  exact run_ne_error hsteps (fun _ _ _ hv => step_ne_rootHints (hv _)) (by simp) hrun

end Iterative

/-! ### What hints do while they are there -/

section Hints

variable {c d : Cache} {octets : List UInt8} {now deadline : Int64}

/-- Hints last a year. -/
theorem lasting_hints (hnow : c.now ≤ now)
    (hdeadline : deadline.toInt ≤ c.now.toInt + rootHintsTtl.toNat) :
    Lasting (c.IsHint octets) now deadline where
  values_ne_nil key e he := by
    obtain ⟨values, hne, rfl⟩ := eq_hintEntry_of_isHint he
    exact hne
  stored key e he := by
    obtain ⟨values, -, rfl⟩ := eq_hintEntry_of_isHint he
    exact Int64.le_iff_toInt_le.1 hnow
  deadline_le key e he := by
    obtain ⟨values, -, rfl⟩ := eq_hintEntry_of_isHint he
    exact hdeadline

variable (hloaded : 0 < (c.loadRoots octets).1) (hlasting : Lasting (c.IsHint octets) now deadline)
  (hholds : Holds (c.IsHint octets) d) (hfrom : now ≤ d.now) (hto : d.now ≤ deadline)

include hloaded hlasting hholds hfrom hto

/-- While the hints are there, the root can be reached. -/
theorem rootReachable_of_holds : d.RootReachable := by
  obtain ⟨h, hmem, servers, hserver, hroot⟩ := isHint_root hloaded
  obtain ⟨x, haddress⟩ := exists_isHint_address hmem
  have hip : (IpAddress.v4 x).text ∈ (c.hintEntry [x.text]).values := List.mem_singleton_self _
  exact rootReachable_of_found? (hlasting.found? hholds hfrom hto hroot) hserver rfl
    (hlasting.found? hholds hfrom hto haddress) hip

theorem isUnknown_zoneFor_of_holds (name : String) : (d.zoneFor name).1.isUnknown = false := by
  obtain ⟨h, -, servers, hserver, hroot⟩ := isHint_root hloaded
  exact isUnknown_zoneFor_eq_false (hlasting.found? hholds hfrom hto hroot)
    (List.ne_nil_of_mem hserver) name

end Hints

/-! ### The course of lookups after loading -/

namespace Move

variable {σ : Type} {env : Environment σ} {w : World σ} {ms : List Move} {c : Cache}
  {octets : List UInt8}

theorem holds_loadRoots (hclean : ∀ key e, c.IsHint octets key e → c.NoFailure key) :
    Holds (c.IsHint octets) (c.loadRoots octets).2 := by
  intro key e he
  refine ⟨fun f hf => hclean key e he f ?_, get?_loadRoots_of_isHint he⟩
  rw [negative_loadRoots] at hf
  exact hf

/-- Within a year of loading, the hints are there at every moment exactly when no response has
replaced one of them.  Then the root can be reached at every moment, and no lookup of the course
fails for want of a zone. -/
theorem root_fallback_iff (hloaded : 0 < (c.loadRoots octets).1)
    (hclean : ∀ key e, c.IsHint octets key e → c.NoFailure key)
    (hw : w.cache = (c.loadRoots octets).2) (hforward : Forward env w ms)
    (hto : (course env w ms).cache.now.toInt ≤ c.now.toInt + rootHintsTtl.toNat) :
    (Throughout env (fun v => Holds (c.IsHint octets) v.cache) w ms ↔
      Unreplaced env (c.IsHint octets) w ms) ∧
    (Unreplaced env (c.IsHint octets) w ms →
      Throughout env (fun v => v.cache.RootReachable) w ms ∧
      ∀ pre (r : Iterative) q post, ms = pre ++ r.moves env q (course env w pre) ++ post →
        ∀ reason, (r.lookup env q (course env w pre)).1 ≠ .error (.rootHints reason)) := by
  have hstart : c.now ≤ w.cache.now := by
    rw [hw, now_loadRoots]
    exact Int64.le_refl _
  have hlasting : Lasting (c.IsHint octets) w.cache.now (course env w ms).cache.now :=
    lasting_hints hstart hto
  have hholds : Holds (c.IsHint octets) w.cache := by
    rw [hw]
    exact holds_loadRoots hclean
  have hiff := throughout_holds_iff hlasting hholds hforward (Int64.le_refl _)
  refine ⟨hiff, fun hunreplaced => ?_⟩
  have hthere := (hiff.2 hunreplaced).and
    (throughout_now hforward (Int64.le_refl _) (Int64.le_refl _))
  refine ⟨hthere.imp fun v hv => ?_, ?_⟩
  · exact rootReachable_of_holds hloaded hlasting hv.1 hv.2.1 hv.2.2
  · intro pre r q post hms reason
    have hzones : Throughout env (fun v => ∀ name, (v.cache.zoneFor name).1.isUnknown = false) w
        ms := hthere.imp fun v hv =>
      isUnknown_zoneFor_of_holds hloaded hlasting hv.1 hv.2.1 hv.2.2
    rw [hms, throughout_append, throughout_append] at hzones
    exact Iterative.lookup_ne_rootHints hzones.1.2

/-! ### Examples -/

/-- A file with one hint. -/
def oneHint : List UInt8 :=
  Text.Utf8.encode "a.root-servers.net 198.51.100.1"

/-- A new cache with the hint loaded. -/
def hintedWorld : World Unit where
  cache := (({} : Cache).loadRoots oneHint).2
  outside := ()

theorem noFailure_of_oneHint (key : String) (e : Entry) (_ : ({} : Cache).IsHint oneHint key e) :
    ({} : Cache).NoFailure key := by
  intro f hf
  cases hf

/-- An outside without any answer. -/
def silence : Environment Unit where
  draw _ := ({}, ())
  exchange _ _ _ := ({ outcome := .error (.timeout "198.51.100.1:53") }, ())

/-- The theorem at work: hints are of use to the last second of the year. -/
theorem rootReachable_oneHint :
    (course silence hintedWorld
      [.step 53 Iterative.exampleQuestion { pending := {} }, .wait 31536000]).cache.RootReachable := by
  have hunreplaced : Unreplaced silence (({} : Cache).IsHint oneHint) hintedWorld
      [.step 53 Iterative.exampleQuestion { pending := {} }, .wait 31536000] := by
    refine ⟨?_, ?_, trivial⟩
    · rintro ⟨_, _, _, x, -, -⟩
      cases x.responds
    · rintro ⟨_, _, _, _, hmove, -⟩
      cases hmove
  exact ((root_fallback_iff (by decide +kernel) noFailure_of_oneHint rfl (by decide +kernel)
    (by decide +kernel)).2 hunreplaced).1.last

/-- A root server refers to itself as the server of a zone, and gives its address for five
minutes. -/
def hintReferral : Message :=
  { isResponse := true
    authorities :=
      [{ owner := .ofTexts ["root-servers", "net"], ttl := 3600
         data := .ns (.ofTexts ["a", "root-servers", "net"]) }]
    additionals :=
      [{ owner := .ofTexts ["a", "root-servers", "net"], ttl := 300
         data := .a ⟨198, 51, 100, 1⟩ }] }

/-- A lookup of one step that receives the referral, and a pause. -/
def glueCourse : List Move :=
  ({ maxSteps := 1 } : Iterative).moves (.responding hintReferral)
    (.make "x.root-servers.net." .a) hintedWorld ++ [.wait 301]

theorem glueCourse_forward : Forward (.responding hintReferral) hintedWorld glueCourse ∧
    (course (.responding hintReferral) hintedWorld glueCourse).cache.now = 301 := by
  decide +kernel

/-- The glue takes the place of the hint, and expires. -/
theorem unreachable_after_glue :
    ¬ ∀ (env : Environment Unit) (c : Cache) (octets : List UInt8) (w : World Unit)
        (ms : List Move), 0 < (c.loadRoots octets).1 →
        (∀ key e, c.IsHint octets key e → c.NoFailure key) → w.cache = (c.loadRoots octets).2 →
        Forward env w ms →
        (course env w ms).cache.now.toInt ≤ c.now.toInt + rootHintsTtl.toNat →
        Throughout env (fun v => v.cache.RootReachable) w ms := by
  intro hclaim
  obtain ⟨hforward, hnow⟩ := glueCourse_forward
  have hto : (course (.responding hintReferral) hintedWorld glueCourse).cache.now.toInt ≤
      ({} : Cache).now.toInt + rootHintsTtl.toNat := by
    rw [hnow]
    decide
  have hloaded : 0 < (({} : Cache).loadRoots oneHint).1 := by decide +kernel
  have hthroughout := hclaim (.responding hintReferral) {} oneHint hintedWorld glueCourse hloaded
    noFailure_of_oneHint rfl hforward hto
  have hunreachable :
      ¬ (course (.responding hintReferral) hintedWorld glueCourse).cache.RootReachable := by
    decide +kernel
  exact hunreachable hthroughout.last

end Move

/-! ### Who replaces the name servers of the root -/

/-- Nothing but the root lies above the root. -/
theorem Name.eq_root_of_isSubdomain_root {zone : String}
    (h : isSubdomain root (canonical zone) = true) : canonical zone = root := by
  have hne : (canonical zone).toList ≠ [] := by
    rw [toList_canonical]
    exact (rooted_canonicalChars _).ne_nil
  have hroot : root.toList = ['.'] := rfl
  simp only [isSubdomain, isSubdomainChars, hroot, Bool.or_eq_true, beq_iff_eq,
    List.isSuffixOf_iff_suffix] at h
  rcases h with (h | h) | h
  · exact String.toList_inj.1 h
  · exact String.toList_inj.1 h.symm
  · have hlength := h.length_le
    simp only [List.length_cons, List.length_nil] at hlength
    exact absurd (List.length_eq_zero_iff.1 (by omega)) hne

theorem Name.canonical_root : canonical root = root := by
  decide +kernel

theorem Name.eq_root_of_makeKey {name : String} {type : RecordType}
    (hcanonical : canonical name = name) (hkey : makeKey name type = makeKey root .ns) :
    name = root ∧ type = .ns := by
  obtain ⟨hname, htype⟩ := makeKey_inj.1 hkey
  exact ⟨hcanonical.symm.trans (hname.trans canonical_root), htype⟩

/-- A referral gives no name servers of the root. -/
theorem Search.key_ne_root_of_mem_referralSets {current : Question} {zone : Zone} {m : Message}
    {g : RecordSet} (hg : g ∈ referralSets current zone m) {name : String}
    (hzone : zone.name = Name.canonical name) : g.key ≠ makeKey Name.root .ns := by
  intro hkey
  unfold referralSets at hg
  cases hservers : m.referralServers with
  | nil =>
      rw [hservers] at hg
      cases hg
  | cons first rest =>
      rw [hservers] at hg
      dsimp only at hg
      split at hg
      · rename_i hdescends
        have hmem : first ∈ m.referralServers := hservers ▸ List.mem_cons_self
        have htype := Message.type_of_mem_referralServers hmem
        unfold setsWithGlue at hg
        dsimp only at hg
        rw [if_pos htype] at hg
        rcases List.mem_cons.1 hg with rfl | hg
        · -- The zone referred to lies strictly below another one.
          have hcanonical : Name.canonical first.name = first.name :=
            Message.isCanonical_of_mem_referralServers hmem
          have hfirst : makeKey first.name first.type = makeKey Name.root .ns := hkey
          obtain ⟨hname, -⟩ := Name.eq_root_of_makeKey hcanonical hfirst
          unfold descends at hdescends
          simp only [Bool.and_eq_true, bne_iff_ne, hname, hzone] at hdescends
          exact hdescends.1.1 (Name.eq_root_of_isSubdomain_root hdescends.1.2).symm
        · -- Glue is of another type.
          obtain ⟨r, -, haddress, -, rfl⟩ := mem_glue.1 hg
          have hglue : makeKey r.name r.type = makeKey Name.root .ns := hkey
          have hns : r.type = .ns := (makeKey_inj.1 hglue).2
          rw [hns] at haddress
          exact absurd haddress (by decide)
      · cases hg

namespace Inquiry

variable {σ : Type} {env : Environment σ} {port : UInt16} {current : Question} {s : Search}
  {w : World σ} (x : Inquiry env port current s w)

theorem exists_zone_name : ∃ name, x.zone.name = Name.canonical name := by
  obtain ⟨b, -, hzone, hreachable⟩ := Search.zoneFor_of_prepare_eq_ask x.asks
  have hzone : (b.zoneFor current.name).1 = x.zone := congrArg Prod.fst hzone
  rw [← hzone] at hreachable ⊢
  obtain ⟨name, -, hname⟩ := Search.name_zoneFor_of_reachable hreachable
  exact ⟨name, hname⟩

/-- A message that gives name servers of the root is an answer to a question for name servers, from
whose name aliases lead to the root, and comes from a server of the root zone. -/
theorem leads_to_root_of_mem_stored {g : RecordSet} (hg : g ∈ x.stored)
    (hkey : g.key = makeKey Name.root .ns) :
    (x.kind = .answer ∨ x.kind = .cname) ∧ current.type = .ns ∧ x.zone.name = Name.root ∧
      Leads x.message.answerRecords Name.root (Name.canonical current.name) Name.root := by
  obtain ⟨name, hzone⟩ := x.exists_zone_name
  have hanswer : x.kind = .answer ∨ x.kind = .cname := by
    have hsets : g ∈ Search.setsOf current x.zone x.message := hg
    unfold Search.setsOf at hsets
    unfold kind
    split at hsets
    · rename_i hkind
      exact .inl hkind
    · rename_i hkind
      exact .inr hkind
    · exact absurd hkey (Search.key_ne_root_of_mem_referralSets hsets hzone)
    · exact absurd hkey (Search.key_ne_root_of_mem_referralSets hsets hzone)
    · cases hsets
  obtain ⟨r, hr, rfl⟩ := x.exists_of_mem_stored hanswer hg
  have hscope : x.InScope r.name r.type := (x.inScope_of_mem_stored hanswer hg).1
  have hcanonical : Name.canonical r.name = r.name :=
    Message.isCanonical_of_mem_filterMap (mem_chainFrom hr).1
  have hrecord : makeKey r.name r.type = makeKey Name.root .ns := hkey
  obtain ⟨hname, htype⟩ := Name.eq_root_of_makeKey hcanonical hrecord
  have hwithin := x.isSubdomain_of_inScope hscope
  rw [hname, hzone] at hwithin
  have hroot : x.zone.name = Name.root := by
    rw [hzone]
    exact Name.eq_root_of_isSubdomain_root hwithin
  have hleads := hscope.leads
  rw [hname, hroot] at hleads
  refine ⟨hanswer, ?_, hroot, hleads⟩
  rcases hscope.type_eq with h | h
  · exact h.symm.trans htype
  · rw [htype] at h
    cases h

end Inquiry

end CachingResolver
