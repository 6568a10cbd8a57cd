import CachingResolver.Proofs.Lines
import CachingResolver.ResolvConf

/-!
# What a file names as servers

Each line of a file names one server or none (`Names`).  A file of which every line is UTF-8 is
read, and gives the servers that its lines name, in order.  But a single line in another encoding,
be it a comment, makes the reading of the whole file fail, and no server is found at all
(`servers_exact`).
-/

namespace CachingResolver.ResolvConf

open CachingResolver.Text

/-- A line names a server: it is a text whose first word is `nameserver` and whose second word is
the address.  The port is that of name servers. -/
def Names (line : List UInt8) (server : Endpoint) : Prop :=
  ∃ text address more ip, Utf8.decode? line = some text ∧
    words text.toList = "nameserver".toList :: address :: more ∧
    IpAddress.ofText? (String.ofList address) = some ip ∧ server = { ip, port := 53 }

/-- The server that the octets of a line name, if any. -/
def ofLine? (line : List UInt8) : Option Endpoint :=
  (Utf8.decode? line).bind fun text => server? text.toList

variable {cs : List Char} {octets : List UInt8} {server : Endpoint}

theorem server?_eq_some_iff : server? cs = some server ↔
    ∃ address more ip, words cs = "nameserver".toList :: address :: more ∧
      IpAddress.ofText? (String.ofList address) = some ip ∧ server = { ip, port := 53 } := by
  unfold server?
  constructor
  · intro h
    split at h
    · rename_i keyword address more hwords
      split at h
      · rename_i hkeyword
        obtain ⟨ip, hip, rfl⟩ := Option.map_eq_some_iff.1 h
        exact ⟨address, more, ip, hkeyword ▸ hwords, hip, rfl⟩
      · cases h
    · cases h
  · rintro ⟨address, more, ip, hwords, hip, rfl⟩
    rw [hwords]
    dsimp only
    rw [if_pos rfl, hip]
    rfl

theorem names_iff (line : List UInt8) (server : Endpoint) :
    Names line server ↔ ofLine? line = some server := by
  unfold ofLine? Names
  simp only [Option.bind_eq_some_iff, server?_eq_some_iff]
  constructor
  · rintro ⟨text, address, more, ip, htext, hline⟩
    exact ⟨text, htext, address, more, ip, hline⟩
  · rintro ⟨text, htext, address, more, ip, hline⟩
    exact ⟨text, address, more, ip, htext, hline⟩

theorem taken_names_iff {lines : List (List UInt8)} {found : List Endpoint} :
    Taken Names lines found ↔ lines.filterMap ofLine? = found :=
  taken_iff names_iff

/-- The servers of a text are those that the lines of its octets name. -/
theorem servers_encode (s : String) : servers (Utf8.encode s) =
    .ok ((splitAt Utf8.lineFeed (Utf8.encode s)).filterMap ofLine?) := by
  have hlines : (splitAt '\n' s.toList).filterMap server? =
      (splitAt Utf8.lineFeed (Utf8.encode s)).filterMap ofLine? := by
    rw [Utf8.splitAt_encode, List.filterMap_map]
    refine List.filterMap_congr fun cs _ => ?_
    rw [Function.comp_apply, ofLine?, Utf8.decode?_encode, Option.bind_some, String.toList_ofList]
  unfold servers
  rw [Utf8.decode?_encode]
  exact congrArg Except.ok hlines

theorem servers_of_decode?_eq_none (h : Utf8.decode? octets = none) :
    servers octets = .error (.inputOutput notText) := by
  unfold servers
  rw [h]

/-- A file is read exactly when every line is UTF-8, and it then gives the servers that its lines
name, in order.  Any other file is an error, whatever servers its lines name. -/
theorem servers_exact (octets : List UInt8) :
    (∀ found, servers octets = .ok found ↔
      (∀ line ∈ splitAt 10 octets, (Utf8.decode? line).isSome = true) ∧
        Taken Names (splitAt 10 octets) found) ∧
    ∀ failure, servers octets = .error failure ↔
      (∃ line ∈ splitAt 10 octets, Utf8.decode? line = none) ∧
        failure = .inputOutput "stream did not contain valid UTF-8" := by
  have htext : (Utf8.decode? octets).isSome = true ↔
      ∀ line ∈ splitAt 10 octets, (Utf8.decode? line).isSome = true := Utf8.isSome_decode?_iff
  have hbad : (∃ line ∈ splitAt 10 octets, Utf8.decode? line = none) ↔
      ¬ ∀ line ∈ splitAt 10 octets, (Utf8.decode? line).isSome = true := by simp
  rw [hbad, ← htext]
  cases hdecode : Utf8.decode? octets with
  | none =>
      rw [servers_of_decode?_eq_none hdecode]
      refine ⟨fun found => ⟨nofun, fun h => nomatch h.1⟩, fun failure => ?_⟩
      exact ⟨fun h => ⟨nofun, (Except.error.inj h).symm⟩, fun h => congrArg _ h.2.symm⟩
  | some s =>
      obtain rfl := Utf8.decode?_eq_some_iff.1 hdecode
      rw [servers_encode]
      refine ⟨fun found => ?_, fun failure => ⟨nofun, fun h => absurd rfl h.1⟩⟩
      rw [taken_names_iff]
      exact ⟨fun h => ⟨rfl, Except.ok.inj h⟩, fun h => congrArg _ h.2⟩

/-- A comment in Latin-1, and a server. -/
def latinComment : List UInt8 :=
  Utf8.encode "# caf" ++ 0xe9 :: Utf8.encode "\nnameserver 192.0.2.1\n"

/-- Not every file is read: a comment in another encoding hides the servers of the other lines. -/
theorem not_servers_latinComment :
    ¬ ∀ octets, ∃ found, servers octets = .ok found ∧ Taken Names (splitAt 10 octets) found := by
  intro hclaim
  obtain ⟨found, hread, -⟩ := hclaim latinComment
  have hfailed : servers latinComment = .error (.inputOutput notText) := by decide +kernel
  rw [hfailed] at hread
  cases hread

end CachingResolver.ResolvConf
