import CachingResolver.Message.Response
import CachingResolver.Proofs.RecordSet

/-!
# The records of a message

Records come from a message with canonical owners, and name servers with canonical names.
-/

namespace CachingResolver

namespace Message

/-- Records of a message have canonical owners. -/
theorem isCanonical_of_mem_filterMap {rs : List WireRecord} {r : ResourceRecord}
    (h : r ∈ rs.filterMap WireRecord.toRecord?) : r.IsCanonical := by
  obtain ⟨wire, -, hwire⟩ := List.mem_filterMap.1 h
  unfold WireRecord.toRecord? at hwire
  obtain ⟨⟨type, value⟩, -, rfl⟩ := Option.map_eq_some_iff.1 hwire
  exact ResourceRecord.isCanonical_ofClass _ _ _ _ _

theorem type_of_mem_referralServers {m : Message} {r : ResourceRecord}
    (h : r ∈ m.referralServers) : r.type = .ns := by
  obtain ⟨-, htype⟩ := List.mem_filter.1 h
  simpa using htype

theorem isCanonical_of_mem_referralServers {m : Message} {r : ResourceRecord}
    (h : r ∈ m.referralServers) : r.IsCanonical :=
  isCanonical_of_mem_filterMap (List.mem_filter.1 h).1

/-- The names of name servers are canonical as well. -/
theorem canonical_value_of_mem_referralServers {m : Message} {r : ResourceRecord}
    (h : r ∈ m.referralServers) : Name.canonical r.value = r.value := by
  have htype := type_of_mem_referralServers h
  obtain ⟨wire, -, hwire⟩ := List.mem_filterMap.1 (List.mem_filter.1 h).1
  unfold WireRecord.toRecord? at hwire
  obtain ⟨⟨type, value⟩, -, rfl⟩ := Option.map_eq_some_iff.1 hwire
  obtain rfl : type = .ns := htype
  exact Name.canonical_canonical value

end Message

end CachingResolver
