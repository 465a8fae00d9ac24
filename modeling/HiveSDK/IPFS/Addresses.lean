import HiveSDK.IPFS.Bootstrap
import HiveSDK.IPFS.Nodes
import HiveSDK.Model.Client
import HiveSDK.Url.Authority

/-!
# The addresses of nodes in URLs

The address of a node is printed into the URL of every request as it was configured. For an IPv4
address that is the host of the URL. An IPv6 address would have to be put in brackets: as it is, its
first colon begins the port, and the URL names no host, or another one. Such a node is never found
reachable (`addresses_encoded_iff`).
-/

namespace HiveSDK.IPFS

open Interaction C

/-- What is documented of `inet_pton`: an IPv4 address is written with digits and dots, an IPv6
address with hexadecimal digits, colons and perhaps dots, and it has a colon. -/
structure InetPton (inetPton : AddressFamily → Bytes → Bool) : Prop where
  inet : ∀ text, inetPton .inet text = true → ∀ c ∈ text, isDigit c = true ∨ c = 46
  inet6 : ∀ text, inetPton .inet6 text = true →
    58 ∈ text ∧ ∀ c ∈ text, Url.isHex c = true ∨ c = 58 ∨ c = 46

/-- The URL names this host, with this port. -/
def Names (url : Bytes) (address : Bytes × ℕ) : Prop :=
  ∃ host, Url.target url = some (host, some address.2) ∧ host.text = address.1

/-- A network in which the addresses in `up` answer; a URL without a host reaches nobody. -/
def network (up : Bytes × ℕ → Bool) (url : Bytes) : Bool :=
  match Url.target url with
  | some (host, some port) => up (host.text, port)
  | _ => false

/-- Every request for the address names it, and it is found reachable where it answers. -/
structure Encoded (s : Thread IPFSConnect) (address : Bytes × ℕ) : Prop where
  version : Names (versionRequest address.1 address.2).url address
  api : ∀ request, ApiRequest address.1 address.2 request → Names request.url address
  reachable : ∀ up, up address = true → ReachableAs (answering (network up)) s address true

section Url

variable {ip path : Bytes} {port : ℕ}

/-- The URL the code prints, as a URL of its parts. -/
private theorem nodeUrl_eq_hostPortUrl (ip : Bytes) (port : ℕ) (path : Bytes) :
    nodeUrl ip port path = Url.hostPortUrl (ascii "http") ip port path := by
  have hport : ascii (toString port) = Url.decimal port := by
    change (Nat.repr port).toList.map _ = _
    rw [Nat.toList_repr]
    rfl
  have hscheme : ascii "http://" = ascii "http" ++ [58, 47, 47] := by decide
  unfold nodeUrl Url.hostPortUrl
  rw [hport, hscheme, show ascii ":" = [58] from by decide]
  simp only [List.append_assoc, List.cons_append, List.nil_append]

/-- An IPv4 address is named by its URLs. -/
private theorem names_of_inet (hip : ∀ c ∈ ip, isDigit c = true ∨ c = 46)
    (hpath : path.head? = some 47) : Names (nodeUrl ip port path) (ip, port) := by
  have hunreserved : ∀ c ∈ ip, Url.isUnreserved c = true := by
    intro c hc
    unfold Url.isUnreserved
    rcases hip c hc with hdigit | rfl
    · rw [isDigit] at hdigit
      rw [hdigit]
      simp only [Bool.or_true, Bool.true_or]
    · decide
  obtain ⟨rest, hrest⟩ := List.head?_eq_some_iff.mp hpath
  rw [nodeUrl_eq_hostPortUrl]
  exact ⟨.name ip, Url.target_hostPortUrl (by decide) hunreserved hrest (by decide), rfl⟩

/-- An IPv6 address is not. -/
private theorem not_names_of_inet6 (hcolon : 58 ∈ ip)
    (hip : ∀ c ∈ ip, Url.isHex c = true ∨ c = 58 ∨ c = 46) (hpath : path.head? = some 47) :
    ¬Names (nodeUrl ip port path) (ip, port) := by
  rintro ⟨host, htarget, htext⟩
  have hplain : ∀ c ∈ ip, c ≠ 64 ∧ c ≠ 91 ∧ Url.endsAuthority c = false := by
    intro c hc
    have hne {d : UInt8} (hd : ¬(Url.isHex d = true ∨ d = 58 ∨ d = 46)) : c ≠ d := fun heq =>
      hd (heq ▸ hip c hc)
    unfold Url.endsAuthority
    simp only [Bool.or_eq_false_iff, decide_eq_false_iff_not]
    exact ⟨hne (by decide), hne (by decide), ⟨hne (by decide), hne (by decide)⟩, hne (by decide)⟩
  obtain ⟨rest, hrest⟩ := List.head?_eq_some_iff.mp hpath
  rw [nodeUrl_eq_hostPortUrl] at htarget
  exact Url.target_ne_of_colon (by decide) hcolon hplain hrest (by decide) htarget htext

/-- A request of the API has a path. -/
theorem ApiRequest.url_eq {request : HttpRequest} (h : ApiRequest ip port request) :
    ∃ path, request.url = nodeUrl ip port path ∧ path.head? = some 47 := by
  cases h with
  | add body => exact ⟨addPath, rfl, by decide⟩
  | fileLs cid => exact ⟨fileLsPath, rfl, by decide⟩
  | cat cid => exact ⟨catPath, rfl, by decide⟩

/-- The URL of the test fits into its buffer. -/
private theorem length_versionUrl (hip : ip.length < 48) (hport : port < 10 ^ 5) :
    (nodeUrl ip port versionPath).length < 4097 := by
  have hdigits : (Url.decimal port).length ≤ 5 := by
    unfold Url.decimal
    rw [List.length_map]
    exact (Nat.length_toDigits_le_iff (by decide) (by decide)).mpr hport
  have hpath : versionPath.length = 8 := by decide
  have hscheme : (ascii "http").length = 4 := by decide
  rw [nodeUrl_eq_hostPortUrl, Url.hostPortUrl]
  simp only [List.length_append, List.length_cons, List.length_nil]
  omega

end Url

/-- What the checks of `ipfs_client_connect` leave of a node. -/
theorem rpcNodeOf_spec {inetPton : AddressFamily → Bytes → Bool} {node : IPFSNode} {rpc : RpcNode}
    (hnode : rpcNodeOf inetPton node = some rpc) :
    (rpc.ipv4 ≠ [] → rpc.ipv4.length < 16 ∧ inetPton .inet rpc.ipv4 = true) ∧
      (rpc.ipv6 ≠ [] → rpc.ipv6.length < 48 ∧ inetPton .inet6 rpc.ipv6 = true) ∧
      rpc.port < 65536 := by
  unfold rpcNodeOf at hnode
  dsimp only at hnode
  split at hnode
  · cases hnode
  split at hnode
  · cases hnode
  rename_i hipv4
  split at hnode
  · cases hnode
  rename_i hipv6
  split at hnode
  · cases hnode
  split at hnode
  · cases hnode
  split at hnode
  · cases hnode
  rename_i hport
  obtain rfl := Option.some.inj hnode
  simp only [not_and, not_or, not_le, Bool.not_eq_false] at hipv4 hipv6
  exact ⟨hipv4, hipv6, by dsimp only; omega⟩

/-- The requests for the addresses of an accepted node name them, and the node is found reachable
under each address that answers, exactly when it is configured without an IPv6 address. -/
theorem addresses_encoded_iff {inetPton : AddressFamily → Bytes → Bool} (hdoc : InetPton inetPton)
    {node : IPFSNode} {rpc : RpcNode} (hnode : rpcNodeOf inetPton node = some rpc)
    (s : Thread IPFSConnect) :
    (∀ address ∈ rpc.addresses, Encoded s address) ↔ rpc.ipv6 = [] := by
  obtain ⟨hipv4, hipv6, hport⟩ := rpcNodeOf_spec hnode
  rw [addresses_eq]
  -- the host of a URL ends at its first colon: an IPv4 address has none, an IPv6 one has
  constructor
  · intro hall
    by_contra hne
    obtain ⟨hcolon, hchars⟩ := hdoc.inet6 _ (hipv6 hne).2
    have hencoded := hall (rpc.ipv6, rpc.port) (by rw [if_neg hne]; simp)
    exact not_names_of_inet6 hcolon hchars (by decide) hencoded.version
  · intro hnone address haddress
    rw [if_pos hnone, List.append_nil] at haddress
    split at haddress
    · exact absurd haddress List.not_mem_nil
    rename_i hne
    obtain rfl := List.mem_singleton.mp haddress
    have hchars := hdoc.inet _ (hipv4 hne).2
    have hversion : Names (nodeUrl rpc.ipv4 rpc.port versionPath) (rpc.ipv4, rpc.port) :=
      names_of_inet hchars (by decide)
    refine ⟨hversion, ?_, ?_⟩
    · intro request hrequest
      obtain ⟨path, hurl, hpath⟩ := hrequest.url_eq
      rw [hurl]
      exact names_of_inet hchars hpath
    · intro up hup
      obtain ⟨host, htarget, htext⟩ := hversion
      have hanswers : network up (nodeUrl rpc.ipv4 rpc.port versionPath) = true := by
        unfold network
        rw [htarget]
        dsimp only
        rwa [htext]
      have hlength := (hipv4 hne).1
      have hfits : (nodeUrl rpc.ipv4 rpc.port versionPath).length < 4097 :=
        length_versionUrl (by omega) (by omega)
      have hreachable : ReachableAs (answering (network up)) s (rpc.ipv4, rpc.port)
        (network up (nodeUrl rpc.ipv4 rpc.port versionPath)) := answering_reachableAs _ s hfits
      rwa [hanswers] at hreachable

/-- `inet_pton` on one address of each family. -/
def twoAddresses : AddressFamily → Bytes → Bool
  | .inet, text => text = ascii "10.0.0.1"
  | .inet6, text => text = ascii "::1"

private theorem inetPton_twoAddresses : InetPton twoAddresses where
  inet text htext c hc := by
    rw [twoAddresses, decide_eq_true_eq] at htext
    rw [htext] at hc
    have hall : ((ascii "10.0.0.1").all fun c => isDigit c || c == 46) = true := by decide
    simpa using List.all_eq_true.mp hall c hc
  inet6 text htext := by
    rw [twoAddresses, decide_eq_true_eq] at htext
    rw [htext]
    have hall : ((ascii "::1").all fun c => Url.isHex c || c == 58 || c == 46) = true := by decide
    refine ⟨by decide, fun c hc => ?_⟩
    simpa [or_assoc] using List.all_eq_true.mp hall c hc

theorem addresses_encoded_iff_inet :
    (∀ address ∈ RpcNode.addresses ⟨ascii "10.0.0.1", [], 5001⟩,
      Encoded ⟨⟨[], 0, []⟩, 0⟩ address) ↔ ([] : Bytes) = [] :=
  @addresses_encoded_iff twoAddresses inetPton_twoAddresses
    ⟨some (ascii "10.0.0.1"), none, some (ascii "5001")⟩ ⟨ascii "10.0.0.1", [], 5001⟩ (by decide) _

/-- A node at the IPv6 loopback address is accepted, and no URL for it names a host. -/
theorem addresses_inet6_loopback :
    rpcNodeOf twoAddresses ⟨none, some (ascii "::1"), some (ascii "9095")⟩ =
        some ⟨[], ascii "::1", 9095⟩ ∧
      (ascii "::1", 9095) ∈ RpcNode.addresses ⟨[], ascii "::1", 9095⟩ ∧
      (∀ path ∈ [versionPath, addPath, fileLsPath, catPath],
        Url.target (nodeUrl (ascii "::1") 9095 path) = none) ∧
      ¬Encoded ⟨⟨[], 0, []⟩, 0⟩ (ascii "::1", 9095) := by
  have hurls : ∀ path ∈ [versionPath, addPath, fileLsPath, catPath],
      Url.target (nodeUrl (ascii "::1") 9095 path) = none := by decide
  refine ⟨by decide, by decide, hurls, fun hencoded => ?_⟩
  obtain ⟨host, htarget, -⟩ := hencoded.version
  rw [show (versionRequest (ascii "::1") 9095).url =
    nodeUrl (ascii "::1") 9095 versionPath from rfl,
    hurls _ List.mem_cons_self] at htarget
  cases htarget

end HiveSDK.IPFS
