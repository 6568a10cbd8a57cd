import CachingResolver.Proofs.AnswerChain
import CachingResolver.Proofs.Lookup.Inquiry
import CachingResolver.Proofs.Lookup.Referral

/-!
# The scope of an answer

An answer may give to the cache what it says about the names to which its first aliases lead from
the name asked, as long as these lie at or below the zone of which a server was asked (`InScope`).
This is all (`Scoped`): what else the response contains changes nothing, glue is not taken, and no
failure is remembered.
-/

namespace CachingResolver

namespace Search

variable {current : Question} {zone : Zone} {m : Message}

theorem refusal?_eq_none_of_answer (h : kindFor current m = .answer ∨ kindFor current m = .cname) :
    refusal? current m = none := by
  unfold refusal?
  rcases h with h | h <;> rw [h]

theorem setsOf_of_answer (h : kindFor current m = .answer ∨ kindFor current m = .cname) :
    setsOf current zone m =
      RecordSet.groups (m.answerChain current.name current.type zone.name) := by
  unfold setsOf
  rcases h with h | h <;> rw [h]

end Search

namespace Inquiry

open CachingResolver.Cache

variable {σ : Type} {env : Environment σ} {port : UInt16} {current : Question} {s : Search}
  {w : World σ} (x : Inquiry env port current s w)

/-- The owners and types of the record sets that an answer may give to the cache. -/
structure InScope (owner : String) (type : RecordType) : Prop where
  leads : Leads x.message.answerRecords x.zone.name (Name.canonical current.name) owner
  type_eq : type = current.type ∨ type = .cname

/-- The message changes the cache within its scope only. -/
structure Scoped : Prop where
  zone_eq : x.zone = (w.cache.zoneFor current.name).1
  within : ∀ owner type, x.InScope owner type → Name.isSubdomain owner x.zone.name = true
  -- What is stored is all that the answer section has of an owner and a type in scope.
  stored : ∀ g ∈ x.stored,
    x.InScope g.name g.type ∧ g = RecordSet.gather g.name g.type x.message.answerRecords
  positive : ∀ key e, x.after.positive.get? key = some e → w.cache.positive.get? key ≠ some e →
    ∃ g ∈ x.stored, key = makeKey g.name g.type ∧ e = x.entryOf g
  negative : ∀ key e, x.after.negative.get? key = some e → w.cache.negative.get? key = some e
  -- Any other key is kept, or a read before or after the exchange finds it expired.
  others : ∀ key, (∀ g ∈ x.stored, key ≠ makeKey g.name g.type) →
    Keeps w.cache x.after key ∨ Keeps (w.cache.advance x.arrival.elapsed) x.after key

theorem isSubdomain_of_inScope {owner : String} {type : RecordType} (h : x.InScope owner type) :
    Name.isSubdomain owner x.zone.name = true :=
  h.leads.isSubdomain x.isSubdomain_zone

section Answer

variable (h : x.kind = .answer ∨ x.kind = .cname)

include h

theorem stored_eq : x.stored =
    RecordSet.groups (x.message.answerChain current.name current.type x.zone.name) :=
  Search.setsOf_of_answer h

theorem exists_of_mem_stored {g : RecordSet} (hg : g ∈ x.stored) :
    ∃ r ∈ x.message.answerChain current.name current.type x.zone.name,
      g = RecordSet.gather r.name r.type x.message.answerRecords := by
  rw [x.stored_eq h] at hg
  exact eq_gather_of_mem_groups_chainFrom hg

theorem inScope_of_mem_stored {g : RecordSet} (hg : g ∈ x.stored) :
    x.InScope g.name g.type ∧ g = RecordSet.gather g.name g.type x.message.answerRecords := by
  obtain ⟨r, hr, rfl⟩ := x.exists_of_mem_stored h hg
  obtain ⟨-, htype, hleads⟩ := mem_chainFrom hr
  exact ⟨⟨hleads, htype⟩, rfl⟩

theorem not_writes_of_answer {key : String} (hkey : ∀ g ∈ x.stored, key ≠ makeKey g.name g.type) :
    ¬ x.Writes key := by
  rintro (⟨g, hg, hgkey⟩ | ⟨hrefusal, -⟩)
  · exact hkey g hg hgkey.symm
  · exact hrefusal (Search.refusal?_eq_none_of_answer h)

/-- An answer changes the cache within its scope only. -/
theorem scoped_of_answer : x.Scoped where
  zone_eq := x.zone_eq
  within _ _ hscope := x.isSubdomain_of_inScope hscope
  stored _ hg := x.inScope_of_mem_stored h hg
  positive key e he hne := by
    rcases x.positive_get?_after he with hbefore | ⟨g, hg, hkey, hentry⟩
    · exact absurd hbefore hne
    · exact ⟨g, hg, hkey.symm, hentry⟩
  negative _ _ he := x.negative_get?_after (Search.refusal?_eq_none_of_answer h) he
  others _ hkey := x.keeps_after (x.not_writes_of_answer h hkey)

end Answer

/-! ### An answer with other matter in it -/

/-- A server of `example.com.` answers with an alias and its target, with addresses of a name that
nobody asked for, and with an address of its own as glue. -/
def mixedAnswer : Message :=
  { isResponse := true
    answers :=
      [{ owner := .ofTexts ["www", "sub", "example", "com"], ttl := 300
         data := .cname (.ofTexts ["web", "example", "com"]) },
       { owner := .ofTexts ["www", "bank", "test"], ttl := 300, data := .a ⟨198, 51, 100, 66⟩ },
       { owner := .ofTexts ["web", "example", "com"], ttl := 300, data := .a ⟨203, 0, 113, 50⟩ }]
    additionals :=
      [{ owner := .ofTexts ["ns", "example", "com"], ttl := 300, data := .a ⟨198, 51, 100, 67⟩ }] }

theorem bankQuestion_asks : ∃ zone server query cache,
    Search.prepare {} 53 Referral.bankQuestion { pending := {} } Referral.bankCache =
      (.ask zone server query, cache) ∧ zone.name = "example.com." :=
  Preparation.exists_ask_of_zoneName? (by decide +kernel)

/-- The theorem at work: the target of the alias is taken, the rest is not. -/
theorem scoped_mixedAnswer :
    ∃ x : Inquiry (.responding mixedAnswer) 53 Referral.bankQuestion { pending := {} }
        ⟨Referral.bankCache, ()⟩,
      x.kind = .cname ∧ x.Scoped ∧
        (x.after.found? (makeKey "web.example.com." .a)).map (·.values) = some ["203.0.113.50"] ∧
        (x.after.found? (makeKey "www.bank.test." .a)).map (·.values) = some ["192.0.2.1"] ∧
        (x.after.found? (makeKey "ns.example.com." .a)).map (·.values) =
          some ["203.0.113.10"] := by
  obtain ⟨zone, server, query, cache, hasks, -⟩ := bankQuestion_asks
  have hkind : Search.kindFor Referral.bankQuestion mixedAnswer = .cname := by decide +kernel
  refine ⟨⟨zone, server, query, cache, mixedAnswer, hasks, rfl⟩, hkind,
    scoped_of_answer _ (.inr hkind), ?_, ?_, ?_⟩
  · unfold after
    decide +kernel
  · unfold after
    decide +kernel
  · unfold after
    decide +kernel

end Inquiry

end CachingResolver
