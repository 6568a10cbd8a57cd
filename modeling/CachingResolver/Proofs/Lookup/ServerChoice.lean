import CachingResolver.Lookup.Search
import CachingResolver.Proofs.Zone.Additions

/-!
# The pools that a server is chosen from

To choose whom to ask, a search draws a server of the zone that can be reached and then one of its
addresses (`chooseServer_eq`); if no server can be reached, it draws the name of one whose address
is to be found first (`defer_eq`).  A draw from an empty pool has no result.  No choice comes to
such a draw, because a server that can be reached has an address (`choosable`).
-/

namespace CachingResolver.Search

/-- What a number draws from a pool.  It draws nothing only if the pool is empty. -/
def drawn {α : Type} (number : Nat) (pool : List α) : Option α :=
  pool[number % pool.length]?

/-- The addresses of a server that one is drawn from: those of IPv4 if there are any. -/
def addressPool (ips : List IpAddress) : List IpAddress :=
  if (ips.filter IpAddress.isV4).isEmpty then ips else ips.filter IpAddress.isV4

/-- The choices among the servers of a zone draw from pools that are not empty. -/
structure Choosable (z : Zone) : Prop where
  reached : ∀ draw : Draw, z.reachable ≠ [] → ∃ server ips ip,
    drawn draw.server z.reachable = some (server, ips) ∧
      drawn draw.address (addressPool ips) = some ip ∧ chooseServer draw z = some ip
  unreached : ∀ draw : Draw, z.reachable = [] → chooseServer draw z = none
  deferred : ∀ (draw : Draw) (s : Search) (current : Question),
    s.addressQuestions current z ≠ [] → ∃ q,
      drawn draw.server (s.addressQuestions current z) = some q ∧
        s.defer draw current z = { s with pending := (s.pending.push current).push q }
  failed : ∀ (draw : Draw) (s : Search) (current : Question),
    s.addressQuestions current z = [] → s.defer draw current z = s.fail current

/-! ### Drawing -/

section Drawing

variable {α : Type} {number : Nat} {pool : List α} {x : α}

theorem drawn_cons (number : Nat) (first : α) (rest : List α) :
    drawn number (first :: rest) = some (pick number first rest) := by
  have hlt : number % (rest.length + 1) < (first :: rest).length := Nat.mod_lt _ (Nat.succ_pos _)
  simp only [drawn, pick, List.length_cons, List.getD_eq_getElem?_getD]
  rw [List.getElem?_eq_getElem hlt]
  rfl

theorem exists_drawn (h : pool ≠ []) (number : Nat) : ∃ x, drawn number pool = some x := by
  cases pool with
  | nil => exact absurd rfl h
  | cons first rest => exact ⟨_, drawn_cons number first rest⟩

theorem mem_of_drawn (h : drawn number pool = some x) : x ∈ pool :=
  List.mem_of_getElem? h

end Drawing

/-! ### Choosing a server -/

variable {draw : Draw} {s : Search} {current q : Question} {z : Zone} {ips : List IpAddress}
  {ip : IpAddress}

/-- An address is in the pool if it is one of the addresses, and of IPv4 if one of them is. -/
theorem mem_addressPool :
    ip ∈ addressPool ips ↔ ip ∈ ips ∧ ((∃ other ∈ ips, other.isV4 = true) → ip.isV4 = true) := by
  unfold addressPool
  split
  · rename_i hnone
    have hnone : ∀ other ∈ ips, other.isV4 = false := by simpa using hnone
    refine ⟨fun h => ⟨h, ?_⟩, fun h => h.1⟩
    rintro ⟨other, hother, hv4⟩
    simp [hnone other hother] at hv4
  · rename_i hsome
    have hsome : ∃ other ∈ ips, other.isV4 = true := by simpa using hsome
    simp [hsome]

theorem addressPool_ne_nil (h : ips ≠ []) : addressPool ips ≠ [] := by
  unfold addressPool
  split
  · exact h
  · rename_i hsome
    simpa using hsome

theorem chooseAddress_eq (draw : Draw) (ips : List IpAddress) :
    chooseAddress draw ips = drawn draw.address (addressPool ips) := by
  unfold chooseAddress addressPool
  split
  · rename_i first rest hv4
    simp [hv4, drawn_cons]
  · rename_i first rest hv4
    simp [hv4, drawn_cons]
  · rfl

/-- A choice draws a server that can be reached, and then one of its addresses. -/
theorem chooseServer_eq (draw : Draw) (z : Zone) :
    chooseServer draw z =
      (drawn draw.server z.reachable).bind fun p => drawn draw.address (addressPool p.2) := by
  unfold chooseServer
  split
  · rename_i hnone
    rw [hnone]
    rfl
  · rename_i first rest hsome
    rw [hsome, drawn_cons, chooseAddress_eq]
    rfl

theorem exists_of_chooseServer (h : chooseServer draw z = some ip) :
    ∃ server ips, (server, ips) ∈ z.reachable ∧ ip ∈ addressPool ips := by
  rw [chooseServer_eq] at h
  obtain ⟨⟨server, ips⟩, hserver, hip⟩ := Option.bind_eq_some_iff.1 h
  exact ⟨server, ips, mem_of_drawn hserver, mem_of_drawn hip⟩

theorem mem_addressQuestions_iff :
    q ∈ s.addressQuestions current z ↔
      (∃ server ∈ z.serverNames, Question.make server .a = q) ∧ q ≠ current ∧
        q ∉ s.pending.questions ∧ q ∉ s.failed := by
  simp [addressQuestions, PendingStack.contains, and_assoc]

/-- Without a server that can be reached, the question for the address of one is drawn. -/
theorem defer_eq (draw : Draw) (s : Search) (current : Question) (z : Zone) :
    s.defer draw current z =
      match drawn draw.server (s.addressQuestions current z) with
      | none => s.fail current
      | some q => { s with pending := (s.pending.push current).push q } := by
  unfold defer
  split
  · rename_i hnone
    rw [hnone]
    rfl
  · rename_i first rest hsome
    rw [hsome, drawn_cons]

theorem choosable (z : Zone) : Choosable z where
  reached draw h := by
    obtain ⟨⟨server, ips⟩, hserver⟩ := exists_drawn h draw.server
    -- Only servers with an address can be reached.
    have hips := (Zone.mem_reachable_iff.1 (mem_of_drawn hserver)).2
    obtain ⟨ip, hip⟩ := exists_drawn (addressPool_ne_nil hips) draw.address
    refine ⟨server, ips, ip, hserver, hip, ?_⟩
    rw [chooseServer_eq, hserver, Option.bind_some, hip]
  unreached draw h := by
    rw [chooseServer_eq, h]
    rfl
  deferred draw s current h := by
    obtain ⟨q, hq⟩ := exists_drawn h draw.server
    refine ⟨q, hq, ?_⟩
    rw [defer_eq, hq]
  failed draw s current h := by
    rw [defer_eq, h]
    rfl

/-- Deferring a question fails it, or puts the question for the address of a server above it. -/
theorem defer_cases (draw : Draw) (s : Search) (current : Question) (z : Zone) :
    s.addressQuestions current z = [] ∧ s.defer draw current z = s.fail current ∨
      ∃ q ∈ s.addressQuestions current z,
        s.defer draw current z = { s with pending := (s.pending.push current).push q } := by
  by_cases hnil : s.addressQuestions current z = []
  · exact .inl ⟨hnil, (choosable z).failed draw s current hnil⟩
  · obtain ⟨q, hq, hdefer⟩ := (choosable z).deferred draw s current hnil
    exact .inr ⟨q, mem_of_drawn hq, hdefer⟩

/-- A server is chosen unless none is reachable. -/
theorem chooseServer_eq_none_iff : chooseServer draw z = none ↔ z.reachable = [] := by
  refine ⟨fun hnone => ?_, (choosable z).unreached draw⟩
  by_contra hne
  obtain ⟨-, -, ip, -, -, hip⟩ := (choosable z).reached draw hne
  rw [hnone] at hip
  cases hip

/-- Whatever servers and addresses are added to a bare zone, in any order and spelling, the zone
reflects them, and every choice among its servers has something to choose from. -/
theorem choosable_build (name? : Option String) (as : List Zone.Addition) :
    ((Zone.bare name?).build as).Reflects as ∧ Choosable ((Zone.bare name?).build as) :=
  ⟨Zone.reflects_build name? as, choosable _⟩

/-- An address that comes before its server is refused, one that comes twice is there once, and
adding the server again takes nothing away. -/
example :
    let v4 : IpAddress := .v4 ⟨203, 0, 113, 10⟩
    let v6 : IpAddress := .v6 ⟨[0x2001, 0xdb8, 0, 0, 0, 0, 0, 0x10], rfl⟩
    let z := (Zone.bare (some "example")).build
      [.address "ns1.example" v4, .server "NS1.Example", .server "ns2.example.",
        .address "ns1.example." v6, .address "ns1.EXAMPLE" v4, .address "ns1.example" v6,
        .server "ns1.example", .address "ns3.example" v4]
    z.reachable = [("ns1.example.", [v6, v4])] ∧ z.serverNames = ["ns1.example.", "ns2.example."] ∧
      chooseServer { server := 5, address := 7 } z = some v4 := by
  decide +kernel

end CachingResolver.Search
