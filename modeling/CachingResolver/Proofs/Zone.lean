import CachingResolver.Proofs.Distinct
import CachingResolver.Proofs.Name
import CachingResolver.Proofs.Table
import CachingResolver.Zone

/-!
# Servers and addresses of a zone

How the operations on a zone change its servers and their addresses: adding a server adds its
canonical name and no address, adding addresses to a server of the zone adds these, and nothing is
ever taken away.  Addresses that are added to distinct ones in order of appearance stay so
(`get?_addAddresses`).
-/

namespace CachingResolver

namespace Zone

variable {z : Zone} {server other : String} {ip : IpAddress}

def HasServer (z : Zone) (server : String) : Prop :=
  (z.servers.get? (Name.canonical server)).isSome = true

theorem mem_serverNames : server ∈ z.serverNames ↔ (z.servers.get? server).isSome = true :=
  Table.mem_keys_iff

theorem mem_reachable_iff {ips : List IpAddress} :
    (server, ips) ∈ z.reachable ↔ z.servers.get? server = some ips ∧ ips ≠ [] := by
  simp [reachable, Table.mem_entries_iff]

/-- A server with an address can be reached. -/
theorem reachable_ne_nil_of_mem_addressesOf (h : ip ∈ z.addressesOf server) :
    z.reachable ≠ [] := by
  unfold addressesOf at h
  cases hips : z.servers.get? (Name.canonical server) with
  | none =>
      rw [hips] at h
      cases h
  | some ips =>
      rw [hips] at h
      exact List.ne_nil_of_mem (mem_reachable_iff.2 ⟨hips, List.ne_nil_of_mem h⟩)

/-! ### Adding a server -/

@[simp] theorem name_addServer (z : Zone) (server : String) :
    (z.addServer server).name = z.name := by
  unfold addServer
  dsimp only
  split <;> rfl

theorem get?_addServer (z : Zone) (server key : String) :
    (z.addServer server).servers.get? key =
      if Name.canonical server = key then some ((z.servers.get? key).getD [])
      else z.servers.get? key := by
  unfold addServer
  dsimp only
  rw [Table.contains_eq_isSome_get?]
  split
  · rename_i hsome
    split
    · rename_i heq
      subst heq
      obtain ⟨ips, hips⟩ := Option.isSome_iff_exists.1 hsome
      rw [hips]
      rfl
    · rfl
  · rename_i hnone
    rw [Table.get?_insert]
    split
    · rename_i heq
      subst heq
      rw [Option.not_isSome_iff_eq_none.1 hnone]
      rfl
    · rfl

theorem hasServer_addServer (z : Zone) (server : String) :
    (z.addServer server).HasServer server := by
  simp [HasServer, get?_addServer]

@[simp] theorem addressesOf_addServer (z : Zone) (server other : String) :
    (z.addServer server).addressesOf other = z.addressesOf other := by
  unfold addressesOf
  rw [get?_addServer]
  split <;> simp

theorem mem_serverNames_addServer :
    other ∈ (z.addServer server).serverNames ↔
      other = Name.canonical server ∨ other ∈ z.serverNames := by
  rw [mem_serverNames, mem_serverNames, get?_addServer]
  split
  · rename_i heq
    simp [heq]
  · rename_i hne
    simp [Ne.symm hne]

/-! ### Adding addresses -/

@[simp] theorem name_addAddress (z : Zone) (server : String) (ip : IpAddress) :
    (z.addAddress server ip).2.name = z.name := by
  unfold addAddress
  dsimp only
  split
  · rfl
  · split <;> rfl

theorem get?_addAddress (z : Zone) (server key : String) (ip : IpAddress) :
    (z.addAddress server ip).2.servers.get? key =
      if Name.canonical server = key then
        (z.servers.get? key).map fun ips => if ips.contains ip then ips else ips ++ [ip]
      else z.servers.get? key := by
  unfold addAddress
  dsimp only
  cases hips : z.servers.get? (Name.canonical server) with
  | none =>
      dsimp only
      split
      · rename_i heq
        rw [← heq, hips]
        rfl
      · rfl
  | some ips =>
      dsimp only
      by_cases hmem : ips.contains ip = true
      · rw [if_pos hmem]
        split
        · rename_i heq
          rw [← heq, hips, Option.map_some, if_pos hmem]
        · rfl
      · rw [if_neg hmem, Table.get?_insert]
        split
        · rename_i heq
          rw [← heq, hips, Option.map_some, if_neg hmem]
        · rfl

theorem isSome_get?_addAddress (z : Zone) (server key : String) (ip : IpAddress) :
    ((z.addAddress server ip).2.servers.get? key).isSome = (z.servers.get? key).isSome := by
  rw [get?_addAddress]
  split <;> simp

@[simp] theorem hasServer_addAddress {new : IpAddress} :
    (z.addAddress server new).2.HasServer other ↔ z.HasServer other := by
  unfold HasServer
  rw [isSome_get?_addAddress]

theorem mem_addressesOf_addAddress {new : IpAddress} :
    ip ∈ (z.addAddress server new).2.addressesOf other ↔
      ip ∈ z.addressesOf other ∨
        z.HasServer server ∧ Name.canonical server = Name.canonical other ∧ ip = new := by
  unfold addressesOf HasServer
  rw [get?_addAddress]
  split
  · rename_i heq
    rw [heq]
    cases z.servers.get? (Name.canonical other) with
    | none => simp
    | some ips =>
        rw [Option.map_some, Option.getD_some]
        split
        · rename_i hknown
          -- A known address is not added again.
          have hmem : new ∈ ips := by simpa using hknown
          constructor
          · exact .inl
          · rintro (h | ⟨-, -, rfl⟩)
            · exact h
            · exact hmem
        · simp
  · rename_i hne
    simp [hne]

@[simp] theorem addAddresses_nil (z : Zone) (server : String) : z.addAddresses server [] = z := rfl

@[simp] theorem addAddresses_cons (z : Zone) (server : String) (ip : IpAddress)
    (ips : List IpAddress) :
    z.addAddresses server (ip :: ips) = (z.addAddress server ip).2.addAddresses server ips := rfl

@[simp] theorem name_addAddresses (z : Zone) (server : String) (ips : List IpAddress) :
    (z.addAddresses server ips).name = z.name := by
  induction ips generalizing z with
  | nil => rfl
  | cons ip ips ih => rw [addAddresses_cons, ih, name_addAddress]

theorem isSome_get?_addAddresses (z : Zone) (server key : String) (ips : List IpAddress) :
    ((z.addAddresses server ips).servers.get? key).isSome = (z.servers.get? key).isSome := by
  induction ips generalizing z with
  | nil => rfl
  | cons ip ips ih => rw [addAddresses_cons, ih, isSome_get?_addAddress]

@[simp] theorem mem_serverNames_addAddresses {ips : List IpAddress} :
    other ∈ (z.addAddresses server ips).serverNames ↔ other ∈ z.serverNames := by
  rw [mem_serverNames, mem_serverNames, isSome_get?_addAddresses]

@[simp] theorem hasServer_addAddresses {ips : List IpAddress} :
    (z.addAddresses server ips).HasServer other ↔ z.HasServer other := by
  unfold HasServer
  rw [isSome_get?_addAddresses]

/-- Addresses are added to the distinct ones that are there if they are new. -/
theorem get?_addAddresses {known : List IpAddress}
    (h : z.servers.get? (Name.canonical server) = some known.eraseDups) (ips : List IpAddress) :
    (z.addAddresses server ips).servers.get? (Name.canonical server) =
      some (known ++ ips).eraseDups := by
  induction ips generalizing z known with
  | nil => rw [addAddresses_nil, h, List.append_nil]
  | cons ip ips ih =>
      have hfirst : (z.addAddress server ip).2.servers.get? (Name.canonical server) =
          some (known ++ [ip]).eraseDups := by
        rw [get?_addAddress, if_pos rfl, h, Option.map_some, eraseDups_append_singleton]
        simp
      rw [addAddresses_cons, ih hfirst, List.append_assoc, List.singleton_append]

theorem get?_addAddresses_of_ne {key : String} (h : Name.canonical server ≠ key)
    (ips : List IpAddress) :
    (z.addAddresses server ips).servers.get? key = z.servers.get? key := by
  induction ips generalizing z with
  | nil => rfl
  | cons ip ips ih => rw [addAddresses_cons, ih, get?_addAddress, if_neg h]

/-- Adding addresses to a server of the zone adds these, and to any other server nothing. -/
theorem mem_addressesOf_addAddresses {ips : List IpAddress} :
    ip ∈ (z.addAddresses server ips).addressesOf other ↔
      ip ∈ z.addressesOf other ∨
        z.HasServer server ∧ Name.canonical server = Name.canonical other ∧ ip ∈ ips := by
  induction ips generalizing z with
  | nil => simp
  | cons new ips ih =>
      rw [addAddresses_cons, ih, mem_addressesOf_addAddress, hasServer_addAddress, List.mem_cons]
      tauto

end Zone

end CachingResolver
