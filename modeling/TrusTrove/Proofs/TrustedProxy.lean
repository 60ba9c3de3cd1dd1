import TrusTrove.TrustedProxy

/-!
# The client address behind trusted proxies

The addresses of `X-Forwarded-For` are its hops. The walk from the right returns the rightmost hop
outside the trusted networks (`walkHops_eq`), whatever stands before it. Where every hop is trusted
it returns the rightmost too: `leftmost` is set at the first address the walk meets and kept, where
the comment names the originator, at the other end.
-/

namespace TrusTrove

/-- The entries of a header value that are addresses, left to right. -/
def hops (value : String) : List IP :=
  (splitComma value).filterMap fun part => parseIP (trimSpace part)

/-- The text of an address, empty for none. -/
def addressText (ip : Option IP) : String := (ip.map IP.string).getD ""

/-- The rightmost hop outside the networks, else the leftmost hop, else none. -/
def clientHop (nets : List IPNet) (ips : List IP) : Option IP :=
  ((ips.filter fun ip => !ipInNetworks ip nets).getLast?).or ips.head?

/-- The peer is an address inside the networks. -/
def PeerTrusted (r : ProxiedRequest) (nets : List IPNet) : Prop :=
  ∃ ip, parseIP (remoteHost r) = some ip ∧ ipInNetworks ip nets

def ProxiedRequest.forwardedFor (r : ProxiedRequest) : String := r.header "X-Forwarded-For"

/-- The request with another `X-Forwarded-For`. -/
def ProxiedRequest.setForwardedFor (r : ProxiedRequest) (value : String) : ProxiedRequest :=
  { r with header := Function.update r.header "X-Forwarded-For" value }

section Headers

theorem parseIP_empty : parseIP "" = none := by decide

theorem hops_eq_fields (value : String) :
    hops value = (Separated.fields unicodeIsSpace ',' value.toList).filterMap
      fun part => parseIP (String.ofList part) := by
  simp [hops, splitComma, Separated.fields, List.filterMap_map, trimSpace]

theorem comma_not_space : ¬ unicodeIsSpace ',' := by decide

theorem hops_trimSpace (value : String) : hops (trimSpace value) = hops value := by
  rw [hops_eq_fields, trimSpace, String.toList_ofList, Separated.fields_trim comma_not_space,
    ← hops_eq_fields]

theorem hops_append (pre suf : String) : hops (pre ++ "," ++ suf) = hops pre ++ hops suf := by
  have htext : (pre ++ "," ++ suf).toList = pre.toList ++ ',' :: suf.toList := by simp
  rw [hops_eq_fields, htext, Separated.fields_append, List.filterMap_append, ← hops_eq_fields,
    ← hops_eq_fields]

theorem hops_of_blank {value : String} (h : trimSpace value = "") : hops value = [] := by
  rw [← hops_trimSpace, h]
  decide

end Headers

section Walk

variable (nets : List IPNet)

/-- The walk takes the first address outside the networks, else the first it met. -/
theorem walkHops_eq : ∀ (parts : List String) (leftmost : Option IP),
    walkHops nets leftmost parts =
      let visited := parts.filterMap fun part => parseIP (trimSpace part)
      addressText ((visited.find? fun ip => !ipInNetworks ip nets).or (leftmost.or visited.head?))
  | [], leftmost => by cases leftmost <;> rfl
  | part :: parts, leftmost => by
    rw [walkHops]
    by_cases hblank : trimSpace part = ""
    · simp only [walkHops_eq parts leftmost, List.filterMap_cons, hblank, parseIP_empty, if_true]
    · rcases hip : parseIP (trimSpace part) with _ | ip
      · simp only [if_neg hblank, hip, walkHops_eq parts leftmost, List.filterMap_cons]
      · simp only [if_neg hblank, hip, List.filterMap_cons]
        by_cases hin : ipInNetworks ip nets
        · simp only [hin, Bool.not_true, Bool.false_eq_true, if_false, walkHops_eq parts,
            List.find?_cons, List.head?_cons]
          cases leftmost <;> rfl
        · simp [hin, addressText]

/-- Over a header value: the rightmost hop outside the networks, else the rightmost hop. -/
theorem walkHops_header (value : String) :
    walkHops nets none (splitComma (trimSpace value)).reverse =
      addressText (((hops value).filter fun ip => !ipInNetworks ip nets).getLast?.or
        (hops value).getLast?) := by
  have hvisited : ((splitComma (trimSpace value)).reverse.filterMap fun part =>
      parseIP (trimSpace part)) = (hops value).reverse := by
    rw [List.filterMap_reverse, ← hops_trimSpace value, hops]
  simp only [walkHops_eq, hvisited, ← List.head?_filter, List.filter_reverse, List.head?_reverse,
    Option.none_or]

end Walk

section Request

variable {r : ProxiedRequest} {nets : List IPNet}

theorem trustedClientIP_outside (h : ¬ PeerTrusted r nets) : trustedClientIP r nets = "" := by
  rw [trustedClientIP]
  split
  · rfl
  rcases hip : parseIP (remoteHost r) with _ | ip
  · rfl
  · have hout : ipInNetworks ip nets = false := by
      by_contra hin
      exact h ⟨ip, hip, by simpa using hin⟩
    simp [hout]

theorem trustedClientIP_trusted (h : PeerTrusted r nets) :
    trustedClientIP r nets =
      if trimSpace r.forwardedFor = "" then singleValueIP r ["X-Real-IP", "True-Client-IP"]
      else walkHops nets none (splitComma (trimSpace r.forwardedFor)).reverse := by
  obtain ⟨ip, hip, hin⟩ := h
  have hnets : nets.length ≠ 0 := by
    intro hnil
    rw [List.length_eq_zero_iff.mp hnil] at hin
    cases hin
  simp only [trustedClientIP, if_neg hnets, hip, hin, Bool.not_true, Bool.false_eq_true, if_false,
    ProxiedRequest.forwardedFor]
  by_cases hvalue : trimSpace (r.header "X-Forwarded-For") = "" <;> simp [hvalue]

theorem trustedClientIP_blank (h : PeerTrusted r nets) (hblank : trimSpace r.forwardedFor = "") :
    trustedClientIP r nets = singleValueIP r ["X-Real-IP", "True-Client-IP"] := by
  rw [trustedClientIP_trusted h, if_pos hblank]

theorem trustedClientIP_forwarded (h : PeerTrusted r nets)
    (hvalue : trimSpace r.forwardedFor ≠ "") :
    trustedClientIP r nets =
      addressText (((hops r.forwardedFor).filter fun ip => !ipInNetworks ip nets).getLast?.or
        (hops r.forwardedFor).getLast?) := by
  rw [trustedClientIP_trusted h, if_neg hvalue, walkHops_header]

theorem peerTrusted_setForwardedFor (h : PeerTrusted r nets) (value : String) :
    PeerTrusted (r.setForwardedFor value) nets := h

@[simp] theorem forwardedFor_setForwardedFor (value : String) :
    (r.setForwardedFor value).forwardedFor = value := by
  simp [ProxiedRequest.setForwardedFor, ProxiedRequest.forwardedFor]

/-- A value with a hop outside the networks resolves to its rightmost one. -/
theorem trustedClientIP_setForwardedFor (h : PeerTrusted r nets) {value : String}
    (hout : ∃ ip ∈ hops value, ipInNetworks ip nets = false) :
    trustedClientIP (r.setForwardedFor value) nets =
      addressText ((hops value).filter fun ip => !ipInNetworks ip nets).getLast? := by
  obtain ⟨ip, hip, hin⟩ := hout
  have hvalue : trimSpace (r.setForwardedFor value).forwardedFor ≠ "" := by
    intro hblank
    rw [forwardedFor_setForwardedFor] at hblank
    rw [hops_of_blank hblank] at hip
    cases hip
  have hmem : ip ∈ (hops value).filter fun ip => !ipInNetworks ip nets := by simp [hip, hin]
  rw [trustedClientIP_forwarded (peerTrusted_setForwardedFor h value) hvalue,
    forwardedFor_setForwardedFor, List.getLast?_eq_some_getLast (List.ne_nil_of_mem hmem),
    Option.some_or]

/-- What stands before a hop outside the networks does not matter. -/
theorem trustedClientIP_prefix {suf : String}
    (hout : ∃ ip ∈ hops suf, ipInNetworks ip nets = false) (pre : String) :
    trustedClientIP (r.setForwardedFor (pre ++ "," ++ suf)) nets =
      trustedClientIP (r.setForwardedFor suf) nets := by
  by_cases h : PeerTrusted r nets
  · obtain ⟨ip, hip, hin⟩ := hout
    have hmem : ip ∈ (hops suf).filter fun ip => !ipInNetworks ip nets := by simp [hip, hin]
    rw [trustedClientIP_setForwardedFor h ⟨ip, hip, hin⟩,
      trustedClientIP_setForwardedFor h ⟨ip, by simp [hops_append, hip], hin⟩, hops_append,
      List.filter_append, List.getLast?_append_of_ne_nil _ (List.ne_nil_of_mem hmem)]
  · rw [trustedClientIP_outside (r := r.setForwardedFor (pre ++ "," ++ suf)) h,
      trustedClientIP_outside (r := r.setForwardedFor suf) h]

end Request

/-- The client address behind proxies is the one the header gives. -/
structure ResolvesClient (r : ProxiedRequest) (nets : List IPNet) : Prop where
  /-- Behind a trusted peer: the rightmost hop outside the networks, else the leftmost hop, else
  the empty string. -/
  forwarded : PeerTrusted r nets → trimSpace r.forwardedFor ≠ "" →
    trustedClientIP r nets = addressText (clientHop nets (hops r.forwardedFor))
  /-- A blank value has no hops: nothing, unless a header of one value holds an address. -/
  blank : PeerTrusted r nets → trimSpace r.forwardedFor = "" →
    hops r.forwardedFor = [] ∧
      trustedClientIP r nets = singleValueIP r ["X-Real-IP", "True-Client-IP"]
  /-- Whatever stands to the left of a hop outside the networks. -/
  unspoofed : ∀ pre suf, (∃ ip ∈ hops suf, ipInNetworks ip nets = false) →
    trustedClientIP (r.setForwardedFor (pre ++ "," ++ suf)) nets =
      trustedClientIP (r.setForwardedFor suf) nets
  /-- No header of another peer is read. -/
  outside : ¬ PeerTrusted r nets → ∀ header, trustedClientIP { r with header } nets = ""

section Originator

variable {nets : List IPNet} {ips : List IP}

theorem clientHop_of_outside (h : ∃ ip ∈ ips, ipInNetworks ip nets = false) (other : Option IP) :
    (ips.filter fun ip => !ipInNetworks ip nets).getLast?.or other = clientHop nets ips := by
  obtain ⟨ip, hip, hin⟩ := h
  have hmem : ip ∈ ips.filter fun ip => !ipInNetworks ip nets := by simp [hip, hin]
  rw [clientHop, List.getLast?_eq_some_getLast (List.ne_nil_of_mem hmem), Option.some_or,
    Option.some_or]

theorem filter_outside_eq_nil (h : ∀ ip ∈ ips, ipInNetworks ip nets) :
    (ips.filter fun ip => !ipInNetworks ip nets) = [] := by
  simpa [List.filter_eq_nil_iff] using h

theorem clientHop_of_inside (h : ∀ ip ∈ ips, ipInNetworks ip nets) :
    clientHop nets ips = ips.head? := by
  rw [clientHop, filter_outside_eq_nil h, List.getLast?_nil, Option.none_or]

theorem addressText_ends :
    addressText ips.getLast? = addressText ips.head? ↔
      ips.head?.map IP.string = ips.getLast?.map IP.string := by
  rcases ips with _ | ⟨ip, ips⟩
  · simp
  · rw [List.getLast?_eq_some_getLast (List.cons_ne_nil ip ips), List.head?_cons]
    simp [addressText, eq_comm]

end Originator

/-- Where a hop is outside the networks the walk finds it; where none is, it returns the rightmost
hop for the leftmost. -/
theorem trusted_client_ip_iff (r : ProxiedRequest) (nets : List IPNet) :
    ResolvesClient r nets ↔
      (PeerTrusted r nets → (∀ ip ∈ hops r.forwardedFor, ipInNetworks ip nets) →
        (hops r.forwardedFor).head?.map IP.string =
          (hops r.forwardedFor).getLast?.map IP.string) := by
  constructor
  · intro hr h hin
    by_cases hvalue : trimSpace r.forwardedFor = ""
    · rw [hops_of_blank hvalue, List.head?_nil, List.getLast?_nil]
    · have hresult := hr.forwarded h hvalue
      rw [trustedClientIP_forwarded h hvalue, filter_outside_eq_nil hin, List.getLast?_nil,
        Option.none_or, clientHop_of_inside hin] at hresult
      exact addressText_ends.mp hresult
  · intro hends
    refine ⟨fun h hvalue => ?_,
      fun h hblank => ⟨hops_of_blank hblank, trustedClientIP_blank h hblank⟩,
      fun pre suf hout => trustedClientIP_prefix hout pre,
      fun h header => trustedClientIP_outside h⟩
    rw [trustedClientIP_forwarded h hvalue]
    by_cases hin : ∀ ip ∈ hops r.forwardedFor, ipInNetworks ip nets
    · rw [filter_outside_eq_nil hin, List.getLast?_nil, Option.none_or, clientHop_of_inside hin,
        addressText_ends.mpr (hends h hin)]
    · have hout : ∃ ip ∈ hops r.forwardedFor, ipInNetworks ip nets = false := by
        simpa using hin
      rw [clientHop_of_outside hout]

/-- The proxy's own network, and a header with two hops in it. -/
def proxyNet : IPNet := ⟨[10, 0, 0, 0], [255, 0, 0, 0]⟩

def twoProxies : ProxiedRequest where
  remoteAddr := "10.0.0.9:45678"
  header name := if name = "X-Forwarded-For" then "10.0.0.7, 10.0.0.5" else ""

/-- Two trusted hops: the answer is the one next to the proxy, not the originator. -/
theorem nearest_proxy_for_originator :
    PeerTrusted twoProxies [proxyNet] ∧
      hops twoProxies.forwardedFor =
        [IP.v4InV6Prefix ++ [10, 0, 0, 7], IP.v4InV6Prefix ++ [10, 0, 0, 5]] ∧
      trustedClientIP twoProxies [proxyNet] = "10.0.0.5" ∧
      addressText (clientHop [proxyNet] (hops twoProxies.forwardedFor)) = "10.0.0.7" ∧
      ¬ ResolvesClient twoProxies [proxyNet] := by
  have hpeer : PeerTrusted twoProxies [proxyNet] :=
    ⟨IP.v4InV6Prefix ++ [10, 0, 0, 9], by decide, by decide⟩
  have hresult : trustedClientIP twoProxies [proxyNet] = "10.0.0.5" := by decide
  have hclient :
      addressText (clientHop [proxyNet] (hops twoProxies.forwardedFor)) = "10.0.0.7" := by decide
  refine ⟨hpeer, by decide, hresult, hclient, fun hr => ?_⟩
  have hforwarded := hr.forwarded hpeer (by decide)
  rw [hresult, hclient] at hforwarded
  exact absurd hforwarded (by decide)

end TrusTrove
