import CachingResolver.Proofs.Zone

/-!
# Zones built by additions

A zone is put together from an empty one by adding servers and addresses of servers, in any order
and with names in any spelling.  A server is there from the first time that it is added
(`get?_build_of_introduced`), and from then on it has the distinct addresses that are given to it,
in order of first appearance (`get?_build_of_some`); adding it again takes none of them away.  What
is given to it before is refused.  `reflects_build` puts this together.
-/

namespace CachingResolver.Zone

/-- A zone before anything is added: of a name, or unknown. -/
def bare : Option String → Zone
  | none => unknown
  | some name => make name

/-- A server that is added to a zone, or an address of one. -/
inductive Addition where
  | server (name : String)
  | address (server : String) (ip : IpAddress)

namespace Addition

def apply (z : Zone) : Addition → Zone
  | server name => z.addServer name
  | address name ip => (z.addAddress name ip).2

/-- A server is added whose canonical name is `key`. -/
def introduces (key : String) : Addition → Bool
  | server name => Name.canonical name == key
  | address _ _ => false

/-- The address that is added to the server whose canonical name is `key`. -/
def address? (key : String) : Addition → Option IpAddress
  | server _ => none
  | address name ip => if Name.canonical name = key then some ip else none

end Addition

def build (z : Zone) (as : List Addition) : Zone :=
  as.foldl Addition.apply z

/-- The addresses that are added to the server whose canonical name is `key`, in order. -/
def given (key : String) (as : List Addition) : List IpAddress :=
  as.filterMap (Addition.address? key)

/-- What a zone holds, and how it takes the next address, is what some additions to a bare zone come
to. -/
structure Reflects (z : Zone) (as : List Addition) : Prop where
  canonical_eq : ∀ server ∈ z.serverNames, Name.canonical server = server
  -- The addresses of a server are the distinct ones given to it after it was first added.
  get?_eq_some_iff : ∀ server ips, z.servers.get? server = some ips ↔
    ∃ before name after, as = before ++ .server name :: after ∧ Name.canonical name = server ∧
      (∀ a ∈ before, a.introduces server = false) ∧ ips = (given server after).eraseDups
  nodup : ∀ server ips, z.servers.get? server = some ips → ips.Nodup
  -- An address is refused exactly when its server was not added before.
  refuses_iff : ∀ server ip, (z.addAddress server ip).1 = false ↔
    ∀ a ∈ as, a.introduces (Name.canonical server) = false
  unchanged : ∀ server ip, (z.addAddress server ip).1 = false → (z.addAddress server ip).2 = z
  mem_reachable_iff : ∀ server ips, (server, ips) ∈ z.reachable ↔
    z.servers.get? server = some ips ∧ ips ≠ []
  reachable_sorted : z.reachable.Pairwise fun p q => p.1 < q.1

variable {z : Zone} {a : Addition} {as before after : List Addition} {key name : String}
  {known ips : List IpAddress}

/-! ### One addition -/

theorem get?_apply_of_none (h : z.servers.get? key = none) (a : Addition) :
    (a.apply z).servers.get? key = if a.introduces key then some [] else none := by
  cases a with
  | server name => simp [Addition.apply, Addition.introduces, get?_addServer, h]
  | address name ip => simp [Addition.apply, Addition.introduces, get?_addAddress, h]

/-- The distinct addresses of a server stay so, in order of appearance. -/
theorem get?_apply_of_some (h : z.servers.get? key = some known.eraseDups) (a : Addition) :
    (a.apply z).servers.get? key = some (known ++ (a.address? key).toList).eraseDups := by
  cases a with
  | server name => simp [Addition.apply, Addition.address?, get?_addServer, h]
  | address name ip =>
      by_cases hname : Name.canonical name = key
      · simp [Addition.apply, Addition.address?, get?_addAddress, h, hname,
          eraseDups_append_singleton]
      · simp [Addition.apply, Addition.address?, get?_addAddress, h, hname]

/-! ### Several additions -/

@[simp] theorem build_cons (z : Zone) (a : Addition) (as : List Addition) :
    z.build (a :: as) = (a.apply z).build as := rfl

theorem build_append (z : Zone) (before after : List Addition) :
    z.build (before ++ after) = (z.build before).build after :=
  List.foldl_append

theorem get?_build_of_some (h : z.servers.get? key = some known.eraseDups) (as : List Addition) :
    (z.build as).servers.get? key = some (known ++ given key as).eraseDups := by
  induction as generalizing z known with
  | nil => simpa [build, given] using h
  | cons a as ih =>
      rw [build_cons, ih (get?_apply_of_some h a), List.append_assoc]
      cases hip : a.address? key <;> simp [given, hip]

theorem get?_build_of_none (h : z.servers.get? key = none)
    (has : ∀ a ∈ as, a.introduces key = false) : (z.build as).servers.get? key = none := by
  induction as generalizing z with
  | nil => exact h
  | cons a as ih =>
      refine ih ?_ fun b hb => has b (List.mem_cons_of_mem _ hb)
      rw [get?_apply_of_none h, has a List.mem_cons_self]
      rfl

/-- A server has the distinct addresses that are given to it after it was first added. -/
theorem get?_build_of_introduced (h : z.servers.get? key = none)
    (hbefore : ∀ a ∈ before, a.introduces key = false) (ha : a.introduces key = true) :
    (z.build (before ++ a :: after)).servers.get? key = some (given key after).eraseDups := by
  have hadded : (a.apply (z.build before)).servers.get? key =
      some ([] : List IpAddress).eraseDups := by
    rw [get?_apply_of_none (get?_build_of_none h hbefore), ha]
    rfl
  rw [build_append, build_cons, get?_build_of_some hadded, List.nil_append]

theorem exists_first_introduction (h : ∃ a ∈ as, a.introduces key = true) :
    ∃ before name after, as = before ++ .server name :: after ∧ Name.canonical name = key ∧
      ∀ a ∈ before, a.introduces key = false := by
  obtain ⟨a, hfind⟩ := Option.isSome_iff_exists.1 (List.find?_isSome.2 h)
  obtain ⟨ha, before, after, rfl, hbefore⟩ := List.find?_eq_some_iff_append.1 hfind
  cases a with
  | server name =>
      exact ⟨before, name, after, rfl, by simpa [Addition.introduces] using ha,
        by simpa using hbefore⟩
  | address name ip => cases ha

/-- A server that is there was added, and has the addresses given to it since. -/
theorem get?_build_eq_some_iff (h : z.servers.get? key = none) :
    (z.build as).servers.get? key = some ips ↔
      ∃ before name after, as = before ++ .server name :: after ∧ Name.canonical name = key ∧
        (∀ a ∈ before, a.introduces key = false) ∧ ips = (given key after).eraseDups := by
  constructor
  · intro hips
    by_cases hintroduced : ∃ a ∈ as, a.introduces key = true
    · obtain ⟨before, name, after, rfl, rfl, hbefore⟩ := exists_first_introduction hintroduced
      refine ⟨before, name, after, rfl, rfl, hbefore, ?_⟩
      rw [get?_build_of_introduced h hbefore (by simp [Addition.introduces])] at hips
      exact (Option.some.inj hips).symm
    · rw [get?_build_of_none h (by simpa using hintroduced)] at hips
      cases hips
  · rintro ⟨before, name, after, rfl, rfl, hbefore, rfl⟩
    exact get?_build_of_introduced h hbefore (by simp [Addition.introduces])

theorem isSome_get?_build_iff (h : z.servers.get? key = none) :
    ((z.build as).servers.get? key).isSome = true ↔ ∃ a ∈ as, a.introduces key = true := by
  constructor
  · intro hsome
    obtain ⟨ips, hips⟩ := Option.isSome_iff_exists.1 hsome
    obtain ⟨before, name, after, rfl, rfl, -, -⟩ := (get?_build_eq_some_iff h).1 hips
    exact ⟨.server name, by simp, by simp [Addition.introduces]⟩
  · intro hintroduced
    obtain ⟨before, name, after, rfl, rfl, hbefore⟩ := exists_first_introduction hintroduced
    rw [get?_build_of_introduced h hbefore (by simp [Addition.introduces])]
    rfl

/-! ### The next address -/

theorem addAddress_fst (z : Zone) (server : String) (ip : IpAddress) :
    (z.addAddress server ip).1 = (z.servers.get? (Name.canonical server)).isSome := by
  cases hips : z.servers.get? (Name.canonical server) with
  | none => simp [addAddress, hips]
  | some ips => by_cases hmem : ip ∈ ips <;> simp [addAddress, hips, hmem]

/-- An address that is refused changes nothing. -/
theorem addAddress_snd_eq_self {server : String} {ip : IpAddress}
    (h : (z.addAddress server ip).1 = false) : (z.addAddress server ip).2 = z := by
  rw [addAddress_fst, Option.isSome_eq_false_iff, Option.isNone_iff_eq_none] at h
  simp [addAddress, h]

/-- Whatever is added to a bare zone, the zone reflects it. -/
theorem reflects_build (name? : Option String) (as : List Addition) :
    ((bare name?).build as).Reflects as := by
  have hbare (key : String) : (bare name?).servers.get? key = none := by cases name? <;> rfl
  refine ⟨fun server hserver => ?_, fun server ips => get?_build_eq_some_iff (hbare server),
    fun server ips hips => ?_, fun server ip => ?_, fun server ip => addAddress_snd_eq_self,
    fun server ips => mem_reachable_iff, ((bare name?).build as).servers.sorted.filter _⟩
  · obtain ⟨a, -, ha⟩ := (isSome_get?_build_iff (hbare server)).1 (mem_serverNames.1 hserver)
    cases a with
    | server name =>
        obtain rfl : Name.canonical name = server := by simpa [Addition.introduces] using ha
        exact Name.canonical_canonical name
    | address name ip => cases ha
  · obtain ⟨before, name, after, -, -, -, rfl⟩ := (get?_build_eq_some_iff (hbare server)).1 hips
    exact nodup_eraseDups _
  · rw [addAddress_fst, ← Bool.not_eq_true, isSome_get?_build_iff (hbare _)]
    simp

end CachingResolver.Zone
