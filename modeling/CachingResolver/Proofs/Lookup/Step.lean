import CachingResolver.Lookup.Iterative
import CachingResolver.Proofs.Cache.Composing
import CachingResolver.Proofs.Cache.EnclosingZone
import CachingResolver.Proofs.DomainName
import CachingResolver.Proofs.Lookup.ServerChoice

/-!
# The first part of a step

What `Search.prepare` comes to, by what the cache holds.  It only reads the cache
(`sweeps_prepare`).  It asks a server of the enclosing zone (`zoneFor_of_prepare_eq_ask`), and it
ends the search in two cases: nothing is known about any zone, or a server could be asked, but the
name of the question has no wire form (`Unaskable`).  When it does ask, the cache has nothing on the
question (`vacant_of_prepare_eq_ask`), and the zone lies at or above the name
(`isSubdomain_zone_of_prepare_eq_ask`).
-/

namespace CachingResolver

/-- The outside in which every server always gives the same response. -/
def Environment.responding (m : Message) : Environment Unit where
  draw _ := ({}, ())
  exchange _ _ _ := ({ outcome := .ok m }, ())

def Preparation.zoneName? : Preparation → Option String
  | ask zone _ _ => some zone.name
  | _ => none

theorem Preparation.exists_ask_of_zoneName? {p : Preparation × Cache} {name : String}
    (h : p.1.zoneName? = some name) :
    ∃ zone server query cache, p = (.ask zone server query, cache) ∧ zone.name = name := by
  obtain ⟨preparation, cache⟩ := p
  cases preparation with
  | settled => cases h
  | impossible => cases h
  | ask zone server query => exact ⟨zone, server, query, cache, rfl, Option.some.inj h⟩

namespace Search

open CachingResolver.Cache

/-- The cache neither answers a question nor knows an alias for its name. -/
def Unsettled (c : Cache) (q : Question) : Prop :=
  (c.lookup q.name q.type).1 = none ∧ (q.type = .cname ∨ (c.readAlias? q.name).1 = none)

/-- A server of the enclosing zone could be asked a question that the cache leaves open, but the
name of the question has no wire form. -/
def Unaskable (c : Cache) (q : Question) : Prop :=
  Unsettled c q ∧ (c.zoneFor q.name).1.reachable ≠ [] ∧
    DomainName.ofText? (Name.canonical q.name) = none

/-- The failure of a query for a name without a wire form. -/
def noWireForm (name : String) : Failure :=
  .invalidName ("Invalid domain '" ++ Name.canonical name ++ "': malformed name")

variable {draw : Draw} {port : UInt16} {current : Question} {s : Search} {c d : Cache}
  {zone : Zone} {server : Endpoint} {query : Message}

theorem isUnknown_eq_false_of_reachable (h : zone.reachable ≠ []) : zone.isUnknown = false := by
  have hne : zone.servers.entries ≠ [] := by
    intro hnil
    apply h
    unfold Zone.reachable
    rw [hnil, List.filter_nil]
  simp [Zone.isUnknown, Table.size, hne]

theorem query_of_ofText?_eq_none {id : UInt16} {name : String} {type : RecordType}
    {recursionDesired : Bool} (h : DomainName.ofText? (Name.canonical name) = none) :
    Message.query id name type recursionDesired = .error (noWireForm name) := by
  unfold Message.query DomainName.parse
  rw [h]
  rfl

theorem query_of_ofText?_eq_some {id : UInt16} {name : String} {type : RecordType}
    {recursionDesired : Bool} {wire : DomainName}
    (h : DomainName.ofText? (Name.canonical name) = some wire) :
    Message.query id name type recursionDesired =
      .ok { id, recursionDesired, questions := [{ name := wire, type := type.number }] } := by
  unfold Message.query DomainName.parse
  rw [h]
  rfl

/-! ### Choosing whom to ask -/

/-- What choosing whom to ask comes to, by the enclosing zone and the name of the question. -/
inductive Choice (name : String) (zone : Zone) : Preparation → Prop
  | unknown (hunknown : zone.isUnknown = true) :
      Choice name zone (.impossible (.rootHints "root zone is not cached"))
  | unreachable (s : Search) (hnone : zone.reachable = []) : Choice name zone (.settled s)
  | unwritable (hreachable : zone.reachable ≠ [])
      (hwire : DomainName.ofText? (Name.canonical name) = none) :
      Choice name zone (.impossible (noWireForm name))
  | asked (server : Endpoint) (query : Message) (hreachable : zone.reachable ≠ [])
      (hwire : DomainName.ofText? (Name.canonical name) ≠ none) :
      Choice name zone (.ask zone server query)

theorem prepareQuery_choice (draw : Draw) (port : UInt16) (current : Question) (s : Search)
    (c : Cache) : ∃ p, Choice current.name (c.zoneFor current.name).1 p ∧
      prepareQuery draw port current s c = (p, (c.zoneFor current.name).2) := by
  unfold prepareQuery
  dsimp only
  generalize c.zoneFor current.name = found
  obtain ⟨zone, d⟩ := found
  dsimp only
  cases hunknown : zone.isUnknown with
  | true => exact ⟨_, .unknown hunknown, rfl⟩
  | false =>
      cases hchosen : chooseServer draw zone with
      | none => exact ⟨_, .unreachable _ (chooseServer_eq_none_iff.1 hchosen), rfl⟩
      | some ip =>
          have hreachable : zone.reachable ≠ [] := by
            intro hnil
            rw [chooseServer_eq_none_iff.2 hnil] at hchosen
            cases hchosen
          cases hwire : DomainName.ofText? (Name.canonical current.name) with
          | none =>
              rw [query_of_ofText?_eq_none hwire]
              exact ⟨_, .unwritable hreachable hwire, rfl⟩
          | some wire =>
              rw [query_of_ofText?_eq_some hwire]
              exact ⟨_, .asked _ _ hreachable (by simp [hwire]), rfl⟩

theorem prepareQuery_of_isUnknown (h : (c.zoneFor current.name).1.isUnknown = true) :
    (prepareQuery draw port current s c).1 =
      .impossible (.rootHints "root zone is not cached") := by
  unfold prepareQuery
  dsimp only
  rw [if_pos h]

theorem prepareQuery_of_unreachable (hzone : (c.zoneFor current.name).1.isUnknown = false)
    (hnone : (c.zoneFor current.name).1.reachable = []) :
    (prepareQuery draw port current s c).1 =
      .settled (s.defer draw current (c.zoneFor current.name).1) := by
  unfold prepareQuery
  dsimp only
  rw [hzone, chooseServer_eq_none_iff.2 hnone]
  rfl

/-! ### The whole first part -/

/-- Either the cache settles the question, or whom to ask is decided after reads that change no
answer. -/
theorem prepare_cases (draw : Draw) (port : UInt16) (current : Question) (s : Search) (c : Cache) :
    (¬ Unsettled c current ∧
      ∃ s' d, Sweeps c d ∧ prepare draw port current s c = (.settled s', d)) ∨
    (Unsettled c current ∧
      ∃ d, Sweeps c d ∧ prepare draw port current s c = prepareQuery draw port current s d) := by
  have hlookup := sweeps_lookup c current.name current.type
  unfold prepare Unsettled
  dsimp only
  cases hfound : (c.lookup current.name current.type).1 with
  | some a => exact .inl ⟨by simp, _, _, hlookup, rfl⟩
  | none =>
      dsimp only
      split
      · -- For an alias itself no alias is looked up.
        rename_i htype
        exact .inr ⟨⟨rfl, .inl htype⟩, _, hlookup, rfl⟩
      · rename_i htype
        have halias := hlookup.trans (sweeps_readAlias? (c.lookup current.name current.type).2
          current.name)
        rw [hlookup.readAlias?_fst_eq]
        cases hlink : (c.readAlias? current.name).1 with
        | some link => exact .inl ⟨by simp [htype], _, _, halias, rfl⟩
        | none => exact .inr ⟨⟨rfl, .inr rfl⟩, _, halias, rfl⟩

theorem prepare_of_unsettled (draw : Draw) (port : UInt16) (s : Search)
    (h : Unsettled c current) :
    ∃ d, Sweeps c d ∧ prepare draw port current s c = prepareQuery draw port current s d := by
  rcases prepare_cases draw port current s c with ⟨hsettled, -⟩ | ⟨-, hquery⟩
  · exact absurd h hsettled
  · exact hquery

theorem sweeps_prepare (draw : Draw) (port : UInt16) (current : Question) (s : Search) (c : Cache) :
    Sweeps c (prepare draw port current s c).2 := by
  rcases prepare_cases draw port current s c with ⟨-, s', d, hd, h⟩ | ⟨-, b, hb, h⟩
  · rw [h]
    exact hd
  · obtain ⟨p, -, hp⟩ := prepareQuery_choice draw port current s b
    rw [h, hp]
    dsimp only
    exact hb.trans (sweeps_zoneFor b current.name)

/-- A server that is asked belongs to the enclosing zone of the name, as the cache has it at that
moment. -/
theorem zoneFor_of_prepare_eq_ask (h : prepare draw port current s c = (.ask zone server query, d)) :
    ∃ b, Sweeps c b ∧ b.zoneFor current.name = (zone, d) ∧ zone.reachable ≠ [] := by
  rcases prepare_cases draw port current s c with ⟨-, s', b, -, hsettled⟩ | ⟨-, b, hb, hquery⟩
  · rw [hsettled] at h
    cases h
  · obtain ⟨p, hchoice, hp⟩ := prepareQuery_choice draw port current s b
    generalize hfound : b.zoneFor current.name = found at hchoice hp
    rw [hquery, hp] at h
    obtain ⟨rfl, rfl⟩ := Prod.mk.inj h
    cases hchoice with
    | asked _ _ hreachable => exact ⟨b, hb, hfound, hreachable⟩

/-- The only ways in which the first part of a step ends a search. -/
theorem prepare_eq_impossible {failure : Failure}
    (h : (prepare draw port current s c).1 = .impossible failure) :
    failure = .rootHints "root zone is not cached" ∨ Unaskable c current := by
  rcases prepare_cases draw port current s c with ⟨-, s', b, -, hsettled⟩ | ⟨hopen, b, hb, hquery⟩
  · rw [hsettled] at h
    cases h
  · obtain ⟨p, hchoice, hp⟩ := prepareQuery_choice draw port current s b
    rw [hquery, hp] at h
    dsimp only at h
    rw [h, hb.zoneFor_fst_eq] at hchoice
    cases hchoice with
    | unknown => exact .inl rfl
    | unwritable hreachable hwire => exact .inr ⟨hopen, hreachable, hwire⟩

theorem prepare_of_unaskable (h : Unaskable c current) :
    (prepare draw port current s c).1 = .impossible (noWireForm current.name) := by
  obtain ⟨hopen, hreachable, hwire⟩ := h
  rcases prepare_cases draw port current s c with ⟨hsettled, -⟩ | ⟨-, b, hb, hquery⟩
  · exact absurd hopen hsettled
  · obtain ⟨p, hchoice, hp⟩ := prepareQuery_choice draw port current s b
    rw [hb.zoneFor_fst_eq] at hchoice
    rw [hquery, hp]
    cases hchoice with
    | unknown hunknown =>
        rw [isUnknown_eq_false_of_reachable hreachable] at hunknown
        cases hunknown
    | unreachable _ hnone => exact absurd hnone hreachable
    | unwritable => rfl
    | asked _ _ _ hsome => exact absurd hwire hsome

/-! ### What is known when a server is asked -/

/-- When a server is asked, no table says anything about the question, and no read can find an alias
for its name. -/
theorem vacant_of_prepare_eq_ask
    (h : prepare draw port current s c = (.ask zone server query, d)) :
    d.Vacant (makeKey current.name current.type) ∧
      (current.type ≠ .cname → d.Hidden (makeKey current.name .cname)) := by
  have hquery : ∀ b, prepareQuery draw port current s b = (.ask zone server query, d) →
      Sweeps b d := by
    intro b hb
    obtain ⟨p, -, hp⟩ := prepareQuery_choice draw port current s b
    rw [hp] at hb
    obtain ⟨-, rfl⟩ := Prod.mk.inj hb
    exact sweeps_zoneFor b current.name
  unfold prepare at h
  dsimp only at h
  cases hfound : (c.lookup current.name current.type).1 with
  | some a =>
      rw [hfound] at h
      cases h
  | none =>
      have hvacant := vacant_lookup hfound
      rw [hfound] at h
      dsimp only at h
      split at h
      · rename_i htype
        exact ⟨(hquery _ h).vacant hvacant, fun hne => absurd htype hne⟩
      · generalize (c.lookup current.name current.type).2 = a at h hvacant
        have halias := sweeps_readAlias? a current.name
        have hfst := a.readAlias?_fst current.name
        unfold alias? at hfst
        cases hlink : (a.readAlias? current.name).1 with
        | some link =>
            rw [hlink] at h
            cases h
        | none =>
            rw [hlink] at h hfst
            have hsweeps := hquery _ h
            refine ⟨hsweeps.vacant (halias.vacant hvacant), fun _ => hsweeps.hidden ?_⟩
            refine hidden_getPositive? fun e he => ?_
            simpa [he] using hfst.symm

/-- An enclosing zone with a server that can be reached is one of the names at or above the name. -/
theorem name_zoneFor_of_reachable {name : String} (h : (c.zoneFor name).1.reachable ≠ []) :
    ∃ n ∈ Name.ancestors (Name.canonical name), (c.zoneFor name).1.name = Name.canonical n := by
  rw [zoneFor_fst] at h ⊢
  rcases c.firstZone_cases (Name.ancestors (Name.canonical name)) with
    hunknown | ⟨n, hn, e, -, -, hzone⟩
  · rw [hunknown] at h
    exact absurd rfl h
  · rw [hzone, name_zoneAt]
    exact ⟨n, hn, rfl⟩

theorem ofText?_of_prepare_eq_ask
    (h : prepare draw port current s c = (.ask zone server query, d)) :
    DomainName.ofText? (Name.canonical current.name) ≠ none := by
  rcases prepare_cases draw port current s c with ⟨-, s', b, -, hsettled⟩ | ⟨-, b, -, hquery⟩
  · rw [hsettled] at h
    cases h
  · obtain ⟨p, hchoice, hp⟩ := prepareQuery_choice draw port current s b
    generalize b.zoneFor current.name = found at hchoice hp
    rw [hquery, hp] at h
    obtain ⟨rfl, -⟩ := Prod.mk.inj h
    cases hchoice with
    | asked _ _ _ hwire => exact hwire

/-- A question whose name has no wire form is not asked, so the names that are asked for lie at or
below the zone of which a server is asked. -/
theorem isSubdomain_zone_of_prepare_eq_ask
    (h : prepare draw port current s c = (.ask zone server query, d)) :
    Name.isSubdomain (Name.canonical current.name) zone.name = true := by
  obtain ⟨b, -, hzoneFor, hreachable⟩ := zoneFor_of_prepare_eq_ask h
  obtain ⟨wire, hwire⟩ := Option.ne_none_iff_exists'.1 (ofText?_of_prepare_eq_ask h)
  have hzone : (b.zoneFor current.name).1 = zone := congrArg Prod.fst hzoneFor
  rw [← hzone] at hreachable ⊢
  obtain ⟨n, hn, hname⟩ := name_zoneFor_of_reachable hreachable
  rw [hname]
  exact Name.isSubdomain_of_mem_ancestors
    (fun c hc => DomainName.isBlank_eq_false_of_ofChars? hwire hc) hn

end Search

end CachingResolver
