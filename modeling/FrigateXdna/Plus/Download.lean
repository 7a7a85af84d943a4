import FrigateXdna.Errors
import FrigateXdna.Python.Url

/-!
# Downloading a model

{lit}`download_model` follows redirects by hand.  The target of each hop is checked, and for
an https hop outside the allowlist an adapter is mounted that connects to one address the
host resolved to.  Whether the request goes through that adapter is decided by the HTTP
library, from the text of the URL.

Addresses, name resolution, the answers of the servers and the rest of the HTTP library are
parameters: what the library makes of a URL, the address its own adapter reaches, and
whether the netrc file has an entry for a URL.

Main results:

- Definition {lit}`downloadModel`: the requests that are made, and the bytes.
- Theorem {lit}`downloadModel_ok_iff`: when bytes are returned.
- Theorem {lit}`pickAdapter_mountedBefore`: the adapter a URL selects, told from the URLs and
  the resolver's answers.
- Theorem {lit}`egressSafe_iff`: when a download that returns bytes was safe.
- Theorem {lit}`userInfo_unpinned`: a URL with user information escapes the pinned adapter.
-/

namespace FrigateXdna

open Python

/-! ## The world outside -/

/-- What a server answers to a download request; {lit}`broken` says that the stream breaks
off after the chunks. -/
structure Response where
  status : Int
  location : PyStr := []
  chunks : List Bytes := []
  broken : Bool := false

/-- How a request ends: with a response, a {lit}`RequestException`, or another exception. -/
inductive Answer
  | response (r : Response)
  | requestFailed
  | raised (e : PyExc)

/-- What a download depends on.  {lit}`resolve` answers a name for the request of a number,
first for the check of the target and again for the adapter; {lit}`prepare` is the URL as
the HTTP library sends it, which raises on some; {lit}`netrc` tells whether the netrc file
has an entry for a URL; {lit}`dial` is the address that the library's own adapter
reaches. -/
structure Web (IP : Type) where
  url : UrlEnv
  parseIp : PyStr → Option IP
  isGlobal : IP → Bool
  resolve : Nat → Bool → PyStr → List IP
  prepare : PyStr → Option PyStr
  netrc : PyStr → Bool
  dial : Nat → PyStr → IP
  answer : Nat → Answer

variable {IP : Type} (w : Web IP) (allow : List PyStr)

/-! ## Checking a target -/

/-- {lit}`_host_ips`. -/
def hostIps (k : Nat) (again : Bool) (host : PyStr) : List IP :=
  match w.parseIp host with
  | some ip => [ip]
  | none => w.resolve k again host

/-- The suffixes of names that stay within a site. -/
def localSuffixes : List PyStr :=
  [py ".localhost", py ".internal", py ".local", py ".lan", py ".home", py ".corp"]

/-- {lit}`_url_target_ok`, for the request of a number. -/
def urlTargetOk (k : Nat) (url : PyStr) : Bool :=
  match urlparse w.url [] url with
  | none => false
  | some parts =>
      match parts.hostname w.url with
      | none => false
      | some name =>
          let host := w.url.lower name
          if allow.contains host then parts.scheme == py "https" || parts.scheme == py "http"
          else if parts.scheme != py "https" then false
          else if host == py "localhost" || localSuffixes.any fun s => endsWith s host then false
          else
            let ips := hostIps w k false host
            !ips.isEmpty && ips.all w.isGlobal

/-- {lit}`(parts.hostname or "").lower()`. -/
def hopHost (url : PyStr) : PyStr :=
  w.url.lower (((urlparse w.url [] url).bind (UrlParts.hostname w.url)).getD [])

/-- An https target outside the allowlist. -/
def pinnable (url : PyStr) : Bool :=
  (urlparse w.url [] url).any (fun parts => parts.scheme == py "https") &&
    !allow.contains (hopHost w url)

/-! ## Adapters -/

/-- The adapters mounted so far: each for a host, with its address. -/
abbrev Mounted (IP : Type) := List (PyStr × IP)

/-- The global addresses an https hop is pinned from. -/
def pinIps (k : Nat) (url : PyStr) : List IP :=
  (hostIps w k true (hopHost w url)).filter w.isGlobal

/-- Mount an adapter for a hop, unless its host has one. -/
def mount (mounted : Mounted IP) (k : Nat) (url : PyStr) : Mounted IP :=
  if pinnable w allow url && !mounted.any (fun m => m.1 == hopHost w url) then
    match pinIps w k url with
    | ip :: _ => mounted ++ [(hopHost w url, ip)]
    | [] => mounted
  else mounted

/-- The prefix an adapter is mounted under, as it is compared. -/
def adapterPrefix (host : PyStr) : PyStr :=
  w.url.lower (py "https://" ++ host)

/-- The adapter that the library chooses: the one with the longest prefix of the URL in
lower case. -/
def pickAdapter (mounted : Mounted IP) (text : PyStr) : Option (PyStr × IP) :=
  (mounted.filter fun m => startsWith (adapterPrefix w m.1) (w.url.lower text)).foldl
    (fun best m =>
      match best with
      | none => some m
      | some b =>
          if (adapterPrefix w b.1).length < (adapterPrefix w m.1).length then some m
          else some b) none

/-- One more adapter: it is chosen when the URL starts with its prefix and no earlier one is
as long. -/
theorem pickAdapter_append (mounted : Mounted IP) (m : PyStr × IP) (text : PyStr) :
    pickAdapter w (mounted ++ [m]) text =
      if startsWith (adapterPrefix w m.1) (w.url.lower text) then
        match pickAdapter w mounted text with
        | none => some m
        | some b =>
            if (adapterPrefix w b.1).length < (adapterPrefix w m.1).length then some m
            else some b
      else pickAdapter w mounted text := by
  unfold pickAdapter
  rw [List.filter_append]
  by_cases h : startsWith (adapterPrefix w m.1) (w.url.lower text) = true
  · have hone : [m].filter (fun m => startsWith (adapterPrefix w m.1) (w.url.lower text)) =
        [m] := List.filter_cons_of_pos h
    rw [hone, List.foldl_append, if_pos h]
    rfl
  · have hnone : [m].filter (fun m => startsWith (adapterPrefix w m.1) (w.url.lower text)) =
        [] := List.filter_cons_of_neg h
    rw [hnone, List.append_nil, if_neg h]

/-- The address that the connection of a request goes to. -/
def connects (mounted : Mounted IP) (k : Nat) (text : PyStr) : IP :=
  ((pickAdapter w mounted text).map Prod.snd).getD (w.dial k text)

/-- Whether the library adds an authorization header of its own: for an entry of the netrc
file, or for a user and a password in the URL that are not both empty. -/
def authorizes (url text : PyStr) : Bool :=
  w.netrc url || ((urlparse w.url [] text).bind UrlParts.credentials).any fun c =>
    !(c.1.isEmpty && c.2.isEmpty)

/-! ## The download -/

/-- A request that was made. -/
structure Hop (IP : Type) where
  number : Nat
  url : PyStr
  address : IP
  authorized : Bool

/-- {lit}`FxdnaError(ACQUISITION_FAILED, "ACQUISITION_FAILED", message)`. -/
def acquisitionFailed (message : PyStr) : Raised :=
  .fxdna ⟨exitAcquisitionFailed, py "ACQUISITION_FAILED", message⟩

/-- {lit}`_redacted_error("download", status)`. -/
def redactedError (status : Option Int) : Raised :=
  acquisitionFailed (py "Plus download failed (" ++
    (match status with
    | some code => py "status=" ++ intRepr code
    | none => py "network/timeout") ++ py ")")

/-- The status codes of a redirect. -/
def isRedirect (status : Int) : Bool :=
  [301, 302, 303, 307, 308].contains status

/-- {lit}`not r.ok`. -/
def isHttpError (status : Int) : Bool :=
  decide (400 ≤ status ∧ status < 600)

/-- The chunks of a body within the limit. -/
def readChunks (maxBytes : Nat) : Nat → List Bytes → Except Raised Bytes
  | _, [] => .ok []
  | total, chunk :: rest =>
      if chunk.isEmpty then readChunks maxBytes total rest
      else if maxBytes < total + chunk.length then
        .error (acquisitionFailed
          (py "download exceeds " ++ natDigits maxBytes ++ py " byte bound"))
      else (readChunks maxBytes (total + chunk.length) rest).map fun more => chunk ++ more

/-- The body of a response. -/
def readBody (maxBytes : Nat) (r : Response) : Except Raised Bytes :=
  match readChunks maxBytes 0 r.chunks with
  | .error e => .error e
  | .ok data => if r.broken then .error (redactedError none) else .ok data

/-- The request of a number, and those after it. -/
def followHops (maxBytes : Nat) :
    Nat → Nat → PyStr → Mounted IP → List (Hop IP) × Except Raised Bytes
  | 0, _, _, _ => ([], .error (acquisitionFailed (py "too many download redirects")))
  | left + 1, k, current, mounted =>
      if pinnable w allow current && (pinIps w k current).isEmpty then
        ([], .error (acquisitionFailed (py "download target no longer resolves public")))
      else
        let mounted := mount w allow mounted k current
        match w.prepare current with
        | none => ([], .error (redactedError none))
        | some text =>
            let hop : Hop IP :=
              ⟨k, current, connects w mounted k text, authorizes w current text⟩
            match w.answer k with
            | .requestFailed => ([hop], .error (redactedError none))
            | .raised e => ([hop], .error (.builtin e))
            | .response r =>
                if isRedirect r.status then
                  match urljoin w.url current r.location with
                  | none => ([hop], .error (.builtin .valueError))
                  | some next =>
                      if urlTargetOk w allow (k + 1) next then
                        let rest := followHops maxBytes left (k + 1) next mounted
                        (hop :: rest.1, rest.2)
                      else
                        ([hop],
                          .error (acquisitionFailed (py "download redirect target rejected")))
                else if isHttpError r.status then
                  ([hop], .error (redactedError (some r.status)))
                else ([hop], readBody maxBytes r)

/-- {lit}`download_model`: the requests made, and the bytes or what is raised. -/
def downloadModel (maxBytes : Nat) (url : PyStr) : List (Hop IP) × Except Raised Bytes :=
  if urlTargetOk w allow 0 url then followHops w allow maxBytes 6 0 url []
  else ([], .error (acquisitionFailed (py "download target rejected (not public https)")))

/-! ## The route the servers lay out -/

/-- The location that the answer to a request names. -/
def locationOf (k : Nat) : PyStr :=
  match w.answer k with
  | .response r => r.location
  | _ => []

/-- The URL of the request of a number. -/
def route (url : PyStr) : Nat → PyStr
  | 0 => url
  | k + 1 => (urljoin w.url (route url k) (locationOf w k)).getD []

/-- The adapters mounted before a request. -/
def mountedBefore (url : PyStr) : Nat → Mounted IP
  | 0 => []
  | k + 1 => mount w allow (mountedBefore url k) k (route w url k)

/-- The URL of a request as the library sends it. -/
def sentText (url : PyStr) (k : Nat) : PyStr :=
  (w.prepare (route w url k)).getD []

/-- The request of a number on the route. -/
def hopAt (url : PyStr) (k : Nat) : Hop IP where
  number := k
  url := route w url k
  address := connects w (mountedBefore w allow url (k + 1)) k (sentText w url k)
  authorized := authorizes w (route w url k) (sentText w url k)

/-- The request of a number can be made. -/
def Sends (url : PyStr) (k : Nat) : Prop :=
  (pinnable w allow (route w url k) = true → pinIps w k (route w url k) ≠ []) ∧
    (w.prepare (route w url k)).isSome = true

/-- The answer to a request is a redirect to a target that passes the check. -/
def Redirects (url : PyStr) (k : Nat) : Prop :=
  ∃ r, w.answer k = .response r ∧ isRedirect r.status = true ∧
    (urljoin w.url (route w url k) r.location).isSome = true ∧
    urlTargetOk w allow (k + 1) (route w url (k + 1)) = true

/-- The answer to a request is a body within the limit. -/
def Delivers (maxBytes : Nat) (k : Nat) (data : Bytes) : Prop :=
  ∃ r, w.answer k = .response r ∧ isRedirect r.status = false ∧
    isHttpError r.status = false ∧ readBody maxBytes r = .ok data

/-- The servers lead from a request to a body that is the answer to a later one. -/
structure Arrives (maxBytes : Nat) (url : PyStr) (k n : Nat) (data : Bytes) : Prop where
  le : k ≤ n
  sends : ∀ j, k ≤ j → j ≤ n → Sends w allow url j
  redirects : ∀ j, k ≤ j → j < n → Redirects w allow url j
  delivers : Delivers w maxBytes n data

variable {w allow} {maxBytes : Nat} {url : PyStr}

theorem urljoin_route {k : Nat} {r : Response} (h : w.answer k = .response r)
    (hsome : (urljoin w.url (route w url k) r.location).isSome = true) :
    urljoin w.url (route w url k) r.location = some (route w url (k + 1)) := by
  obtain ⟨next, hnext⟩ := Option.isSome_iff_exists.mp hsome
  simp [route, locationOf, h, hnext]

/-- One request of the route that is answered with a body. -/
theorem followHops_delivers {left k : Nat} {data : Bytes} (hsends : Sends w allow url k)
    (hdelivers : Delivers w maxBytes k data) :
    followHops w allow maxBytes (left + 1) k (route w url k) (mountedBefore w allow url k) =
      ([hopAt w allow url k], .ok data) := by
  obtain ⟨hpin, hprepare⟩ := hsends
  obtain ⟨text, htext⟩ := Option.isSome_iff_exists.mp hprepare
  obtain ⟨r, hanswer, hredirect, herror, hbody⟩ := hdelivers
  have hpinned : ¬ (pinnable w allow (route w url k) && (pinIps w k (route w url k)).isEmpty) =
      true := by
    simp only [Bool.and_eq_true, List.isEmpty_iff, not_and]
    exact hpin
  rw [followHops, if_neg hpinned]
  simp only [htext, hanswer, hredirect, herror, hbody, Bool.false_eq_true, if_false]
  simp [hopAt, mountedBefore, sentText, htext]

/-- One request of the route that is answered with a redirect. -/
theorem followHops_redirects {left k : Nat} (hsends : Sends w allow url k)
    (hredirects : Redirects w allow url k) :
    followHops w allow maxBytes (left + 1) k (route w url k) (mountedBefore w allow url k) =
      let rest := followHops w allow maxBytes left (k + 1) (route w url (k + 1))
        (mountedBefore w allow url (k + 1))
      (hopAt w allow url k :: rest.1, rest.2) := by
  obtain ⟨hpin, hprepare⟩ := hsends
  obtain ⟨text, htext⟩ := Option.isSome_iff_exists.mp hprepare
  obtain ⟨r, hanswer, hredirect, hjoin, htarget⟩ := hredirects
  have hpinned : ¬ (pinnable w allow (route w url k) && (pinIps w k (route w url k)).isEmpty) =
      true := by
    simp only [Bool.and_eq_true, List.isEmpty_iff, not_and]
    exact hpin
  rw [followHops, if_neg hpinned]
  simp only [htext, hanswer, hredirect, urljoin_route hanswer hjoin, htarget, if_true]
  simp [hopAt, mountedBefore, sentText, htext]

/-- The servers lead to a body: the requests up to it are made, and it is returned. -/
theorem followHops_arrives {left k n : Nat} {data : Bytes}
    (h : Arrives w allow maxBytes url k n data) (hleft : n < k + left) :
    followHops w allow maxBytes left k (route w url k) (mountedBefore w allow url k) =
      ((List.range' k (n + 1 - k)).map (hopAt w allow url), .ok data) := by
  induction left generalizing k with
  | zero =>
      have hle := h.le
      omega
  | succ left ih =>
      have hle := h.le
      by_cases hlast : k = n
      · subst hlast
        rw [followHops_delivers (h.sends k (Nat.le_refl k) (Nat.le_refl k)) h.delivers]
        have hone : k + 1 - k = 1 := by omega
        rw [hone]
        rfl
      · have hlt : k < n := by omega
        have hrest : Arrives w allow maxBytes url (k + 1) n data :=
          ⟨hlt, fun j hj => h.sends j (by omega), fun j hj => h.redirects j (by omega),
            h.delivers⟩
        rw [followHops_redirects (h.sends k (Nat.le_refl k) hle)
          (h.redirects k (Nat.le_refl k) hlt), ih hrest (by omega)]
        have hsucc : n + 1 - k = (n + 1 - (k + 1)) + 1 := by omega
        rw [hsucc, List.range'_succ, List.map_cons]

/-- Bytes that are returned are a body the servers lead to. -/
theorem arrives_of_followHops {left k : Nat} {data : Bytes}
    (h : (followHops w allow maxBytes left k (route w url k)
      (mountedBefore w allow url k)).2 = .ok data) :
    ∃ n, n < k + left ∧ Arrives w allow maxBytes url k n data := by
  induction left generalizing k with
  | zero => contradiction
  | succ left ih =>
      rw [followHops] at h
      split at h
      · contradiction
      · rename_i hpinned
        split at h
        · contradiction
        · rename_i text htext
          have hsends : Sends w allow url k := by
            refine ⟨fun hpinnable hnil => hpinned (by simp [hpinnable, hnil]), ?_⟩
            rw [htext]
            rfl
          split at h
          · contradiction
          · contradiction
          · rename_i r hanswer
            split at h
            · rename_i hredirect
              split at h
              · contradiction
              · rename_i next hnext
                split at h
                · rename_i htarget
                  have hroute : route w url (k + 1) = next := by
                    simp [route, locationOf, hanswer, hnext]
                  have hredirects : Redirects w allow url k :=
                    ⟨r, hanswer, hredirect, by rw [hnext]; rfl, by rw [hroute]; exact htarget⟩
                  rw [← hroute] at h
                  obtain ⟨n, hn, hrest⟩ := ih h
                  refine ⟨n, by omega, by have := hrest.le; omega, ?_, ?_, hrest.delivers⟩
                  · intro j hj hjn
                    by_cases heq : j = k
                    · exact heq ▸ hsends
                    · exact hrest.sends j (by omega) hjn
                  · intro j hj hjn
                    by_cases heq : j = k
                    · exact heq ▸ hredirects
                    · exact hrest.redirects j (by omega) hjn
                · contradiction
            · rename_i hredirect
              split at h
              · contradiction
              · rename_i herror
                refine ⟨k, by omega, Nat.le_refl k, ?_, fun j hj hjk => by omega, r, hanswer,
                  by simpa using hredirect, by simpa using herror, h⟩
                intro j hj hjk
                obtain rfl : j = k := by omega
                exact hsends

/-- The requests of a download that the servers lead to a body. -/
theorem downloadModel_arrives {n : Nat} {data : Bytes}
    (htarget : urlTargetOk w allow 0 url = true) (hn : n < 6)
    (h : Arrives w allow maxBytes url 0 n data) :
    downloadModel w allow maxBytes url =
      ((List.range (n + 1)).map (hopAt w allow url), .ok data) := by
  have hfollow : followHops w allow maxBytes 6 0 (route w url 0) (mountedBefore w allow url 0) =
      ((List.range' 0 (n + 1 - 0)).map (hopAt w allow url), .ok data) :=
    followHops_arrives h (by omega)
  rw [downloadModel, if_pos htarget, List.range_eq_range']
  exact hfollow

/-- **When a download returns bytes:** the target passes the check and the servers lead to a
body within six requests. -/
theorem downloadModel_ok_iff {data : Bytes} :
    (downloadModel w allow maxBytes url).2 = .ok data ↔
      urlTargetOk w allow 0 url = true ∧
        ∃ n < 6, Arrives w allow maxBytes url 0 n data := by
  constructor
  · intro h
    unfold downloadModel at h
    split at h
    · rename_i htarget
      obtain ⟨n, hn, harrives⟩ := arrives_of_followHops (k := 0) h
      exact ⟨htarget, n, by omega, harrives⟩
    · contradiction
  · rintro ⟨htarget, n, hn, harrives⟩
    rw [downloadModel_arrives htarget hn harrives]

/-! ## What is safe -/

theorem readChunks_length {total : Nat} {chunks : List Bytes} {data : Bytes}
    (htotal : total ≤ maxBytes) (h : readChunks maxBytes total chunks = .ok data) :
    total + data.length ≤ maxBytes := by
  induction chunks generalizing total data with
  | nil =>
      obtain rfl := Except.ok.inj h
      exact htotal
  | cons chunk rest ih =>
      unfold readChunks at h
      split at h
      · exact ih htotal h
      · split at h
        · contradiction
        · rename_i hfits
          cases hmore : readChunks maxBytes (total + chunk.length) rest with
          | error e =>
              rw [hmore] at h
              contradiction
          | ok more =>
              rw [hmore] at h
              obtain rfl := Except.ok.inj h
              have hrest := ih (by omega) hmore
              rw [List.length_append]
              omega

/-- A body that is returned is within the limit. -/
theorem Delivers.length_le {n : Nat} {data : Bytes} (h : Delivers w maxBytes n data) :
    data.length ≤ maxBytes := by
  obtain ⟨r, -, -, -, hbody⟩ := h
  unfold readBody at hbody
  split at hbody
  · contradiction
  · rename_i chunks hchunks
    split at hbody
    · contradiction
    · obtain rfl := Except.ok.inj hbody
      have hlen := readChunks_length (Nat.zero_le maxBytes) hchunks
      omega

variable (w allow)

/-- The addresses of a host that were found to be global for the request of a number. -/
def validated (k : Nat) (url : PyStr) : List IP :=
  (hostIps w k false (hopHost w url) ++ hostIps w k true (hopHost w url)).filter w.isGlobal

/-- The requests behind returned bytes were safe. -/
structure EgressSafe (maxBytes : Nat) (hops : List (Hop IP)) (data : Bytes) : Prop where
  checked : ∀ h ∈ hops, urlTargetOk w allow h.number h.url = true
  connected : ∀ h ∈ hops, pinnable w allow h.url = true → h.address ∈ validated w h.number h.url
  requests : hops.length ≤ 6
  size : data.length ≤ maxBytes
  silent : ∀ h ∈ hops, h.authorized = false

/-! ## Which adapter a URL selects -/

/-- The URL of a request starts with the prefix of a host: {lit}`https://` and the host of
the pinned URL of a request that is not later. -/
def Matches (url : PyStr) (k j : Nat) : Prop :=
  j ≤ k ∧ pinnable w allow (route w url j) = true ∧
    startsWith (adapterPrefix w (hopHost w (route w url j))) (w.url.lower (sentText w url k)) =
      true

/-- The length of the prefix of the host of a request. -/
def prefixLength (url : PyStr) (j : Nat) : Nat :=
  (adapterPrefix w (hopHost w (route w url j))).length

/-- The first request whose host is the longest that the URL of a request starts with. -/
def PinnedBy (url : PyStr) (k j : Nat) : Prop :=
  Matches w allow url k j ∧ ∀ i, Matches w allow url k i →
    prefixLength w url i ≤ prefixLength w url j ∧
      (i < j → prefixLength w url i < prefixLength w url j)

/-- The request of a number stays within what was validated for it.  Where its URL starts
with the host of a pinned URL, the address that was found for the first request to the
longest such host was found for this request too; where it starts with none, the library
itself reaches such an address.  And neither the URL nor the netrc file has credentials. -/
structure Contained (url : PyStr) (k : Nat) : Prop where
  pinned : pinnable w allow (route w url k) = true →
    ∀ j ip, PinnedBy w allow url k j → (pinIps w j (route w url j)).head? = some ip →
      ip ∈ validated w k (route w url k)
  unpinned : pinnable w allow (route w url k) = true → (∀ j, ¬ Matches w allow url k j) →
    w.dial k (sentText w url k) ∈ validated w k (route w url k)
  netrc : w.netrc (route w url k) = false
  credentials : ∀ parts user password, urlparse w.url [] (sentText w url k) = some parts →
    parts.credentials = some (user, password) → user = [] ∧ password = []

variable {w allow}

/-- At most one request pins another one. -/
theorem PinnedBy.unique {k i j : Nat} (hi : PinnedBy w allow url k i)
    (hj : PinnedBy w allow url k j) : i = j := by
  obtain ⟨hij, hlt⟩ := hj.2 i hi.1
  obtain ⟨hji, hgt⟩ := hi.2 j hj.1
  rcases Nat.lt_trichotomy i j with h | h | h
  · have := hlt h
    omega
  · exact h
  · have := hgt h
    omega

/-- A host has an adapter exactly after a request with a pinned URL of it. -/
theorem mem_mountedBefore {n : Nat} (hfound : ∀ j < n, pinnable w allow (route w url j) = true →
    pinIps w j (route w url j) ≠ []) (host : PyStr) :
    (mountedBefore w allow url n).any (fun m => m.1 == host) = true ↔
      ∃ j < n, pinnable w allow (route w url j) = true ∧ hopHost w (route w url j) = host := by
  induction n with
  | zero => simp [mountedBefore]
  | succ n ih =>
      have ih := ih fun j hj => hfound j (by omega)
      have hlast : (∃ j < n + 1, pinnable w allow (route w url j) = true ∧
          hopHost w (route w url j) = host) ↔
          (∃ j < n, pinnable w allow (route w url j) = true ∧ hopHost w (route w url j) = host) ∨
            pinnable w allow (route w url n) = true ∧ hopHost w (route w url n) = host := by
        constructor
        · rintro ⟨j, hj, h⟩
          rcases Nat.lt_succ_iff_lt_or_eq.mp hj with hlt | rfl
          · exact .inl ⟨j, hlt, h⟩
          · exact .inr h
        · rintro (⟨j, hj, h⟩ | h)
          · exact ⟨j, by omega, h⟩
          · exact ⟨n, by omega, h⟩
      rw [hlast, ← ih, mountedBefore, mount]
      split
      · rename_i hmounts
        rw [Bool.and_eq_true] at hmounts
        cases hips : pinIps w n (route w url n) with
        | nil => exact absurd hips (hfound n (by omega) hmounts.1)
        | cons ip rest =>
            rw [List.any_append, Bool.or_eq_true]
            simp [hmounts.1]
      · rename_i hkeeps
        rw [or_iff_left_of_imp]
        rintro ⟨hpinnable, rfl⟩
        simpa [hpinnable] using hkeeps

/-- **The adapter that a URL selects**, of those mounted up to a request: that of the first
request to the longest host that the URL starts with, if there is one. -/
theorem pickAdapter_mountedBefore {k n : Nat} (hn : n ≤ k + 1)
    (hfound : ∀ j < n, pinnable w allow (route w url j) = true →
      pinIps w j (route w url j) ≠ []) :
    (pickAdapter w (mountedBefore w allow url n) (sentText w url k) = none ∧
        ∀ j < n, ¬ Matches w allow url k j) ∨
      ∃ j < n, ∃ ip, Matches w allow url k j ∧
        (∀ i < n, Matches w allow url k i → prefixLength w url i ≤ prefixLength w url j ∧
          (i < j → prefixLength w url i < prefixLength w url j)) ∧
        (pinIps w j (route w url j)).head? = some ip ∧
        pickAdapter w (mountedBefore w allow url n) (sentText w url k) =
          some (hopHost w (route w url j), ip) := by
  induction n with
  | zero => exact .inl ⟨rfl, fun j hj => absurd hj (Nat.not_lt_zero j)⟩
  | succ n ih =>
      have ih := ih (by omega) fun j hj => hfound j (by omega)
      have hmember := mem_mountedBefore (fun j (hj : j < n) => hfound j (by omega))
        (hopHost w (route w url n))
      rw [mountedBefore, mount]
      split
      · rename_i hmounts
        rw [Bool.and_eq_true, Bool.not_eq_true', ← Bool.not_eq_true, hmember] at hmounts
        obtain ⟨hpinnable, hnew⟩ := hmounts
        obtain ⟨ip, rest, hips⟩ := List.exists_cons_of_ne_nil (hfound n (by omega) hpinnable)
        have hhead : (pinIps w n (route w url n)).head? = some ip := by rw [hips]; rfl
        rw [hips]
        dsimp only
        rw [pickAdapter_append]
        by_cases hstarts : startsWith (adapterPrefix w (hopHost w (route w url n)))
            (w.url.lower (sentText w url k)) = true
        · have hmatches : Matches w allow url k n := ⟨by omega, hpinnable, hstarts⟩
          rw [if_pos hstarts]
          rcases ih with ⟨hnone, hno⟩ | ⟨j, hj, ip', hmatch, hlongest, hhead', hpick⟩
          · rw [hnone]
            refine .inr ⟨n, by omega, ip, hmatches, fun i hi hmatch => ?_, hhead, rfl⟩
            rcases Nat.lt_succ_iff_lt_or_eq.mp hi with hlt | rfl
            · exact absurd hmatch (hno i hlt)
            · exact ⟨Nat.le_refl _, fun h => absurd h (Nat.lt_irrefl _)⟩
          · rw [hpick]
            dsimp only
            split
            · rename_i hlonger
              change prefixLength w url j < prefixLength w url n at hlonger
              refine .inr ⟨n, by omega, ip, hmatches, fun i hi hmatch => ?_, hhead, rfl⟩
              rcases Nat.lt_succ_iff_lt_or_eq.mp hi with hlt | rfl
              · have hle := (hlongest i hlt hmatch).1
                exact ⟨by omega, fun _ => by omega⟩
              · exact ⟨Nat.le_refl _, fun h => absurd h (Nat.lt_irrefl _)⟩
            · rename_i hlonger
              change ¬ prefixLength w url j < prefixLength w url n at hlonger
              refine .inr ⟨j, by omega, ip', hmatch, fun i hi hmatch' => ?_, hhead', rfl⟩
              rcases Nat.lt_succ_iff_lt_or_eq.mp hi with hlt | rfl
              · exact hlongest i hlt hmatch'
              · exact ⟨by omega, fun h => by omega⟩
        · rw [if_neg hstarts]
          rcases ih with ⟨hnone, hno⟩ | ⟨j, hj, ip', hmatch, hlongest, hhead', hpick⟩
          · refine .inl ⟨hnone, fun j hj hmatch => ?_⟩
            rcases Nat.lt_succ_iff_lt_or_eq.mp hj with hlt | rfl
            · exact hno j hlt hmatch
            · exact hstarts hmatch.2.2
          · refine .inr ⟨j, by omega, ip', hmatch, fun i hi hmatch' => ?_, hhead', hpick⟩
            rcases Nat.lt_succ_iff_lt_or_eq.mp hi with hlt | rfl
            · exact hlongest i hlt hmatch'
            · exact absurd hmatch'.2.2 hstarts
      · -- the URL is not pinned, or its host had an adapter before
        rename_i hkeeps
        have hearlier : Matches w allow url k n → ∃ i < n, Matches w allow url k i ∧
            prefixLength w url i = prefixLength w url n := by
          rintro ⟨hle, hpinnable, hstarts⟩
          have hmounted : (mountedBefore w allow url n).any
              (fun m => m.1 == hopHost w (route w url n)) = true := by
            simpa [hpinnable] using hkeeps
          obtain ⟨i, hi, hpinnable', hhost⟩ := hmember.mp hmounted
          exact ⟨i, hi, ⟨by omega, hpinnable', by rw [hhost]; exact hstarts⟩,
            by rw [prefixLength, prefixLength, hhost]⟩
        rcases ih with ⟨hnone, hno⟩ | ⟨j, hj, ip', hmatch, hlongest, hhead', hpick⟩
        · refine .inl ⟨hnone, fun j hj hmatch => ?_⟩
          rcases Nat.lt_succ_iff_lt_or_eq.mp hj with hlt | rfl
          · exact hno j hlt hmatch
          · obtain ⟨i, hi, hmatch', -⟩ := hearlier hmatch
            exact hno i hi hmatch'
        · refine .inr ⟨j, by omega, ip', hmatch, fun i hi hmatch' => ?_, hhead', hpick⟩
          rcases Nat.lt_succ_iff_lt_or_eq.mp hi with hlt | rfl
          · exact hlongest i hlt hmatch'
          · obtain ⟨i', hi', hmatch'', hsame⟩ := hearlier hmatch'
            have hle := (hlongest i' hi' hmatch'').1
            exact ⟨by omega, fun h => by omega⟩

/-- The address of a request on the route. -/
theorem connects_mem_iff {k : Nat} (hsends : ∀ j ≤ k, Sends w allow url j) (ips : List IP) :
    connects w (mountedBefore w allow url (k + 1)) k (sentText w url k) ∈ ips ↔
      (∀ j ip, PinnedBy w allow url k j → (pinIps w j (route w url j)).head? = some ip →
          ip ∈ ips) ∧
        ((∀ j, ¬ Matches w allow url k j) → w.dial k (sentText w url k) ∈ ips) := by
  have hpick := pickAdapter_mountedBefore (k := k) (Nat.le_refl (k + 1))
    fun j hj => (hsends j (by omega)).1
  rw [connects]
  rcases hpick with ⟨hnone, hno⟩ | ⟨j, hj, ip, hmatch, hlongest, hhead, hpick⟩
  · rw [hnone]
    have hno' : ∀ j, ¬ Matches w allow url k j := fun j hmatch =>
      hno j (Nat.lt_succ_of_le hmatch.1) hmatch
    constructor
    · exact fun h => ⟨fun j ip hpinned _ => absurd hpinned.1 (hno' j), fun _ => h⟩
    · exact fun h => h.2 hno'
  · rw [hpick]
    have hpinned : PinnedBy w allow url k j :=
      ⟨hmatch, fun i hi => hlongest i (Nat.lt_succ_of_le hi.1) hi⟩
    constructor
    · refine fun h => ⟨fun j' ip' hpinned' hhead' => ?_, fun hno => absurd hmatch (hno j)⟩
      obtain rfl := hpinned'.unique hpinned
      obtain rfl := Option.some.inj (hhead'.symm.trans hhead)
      exact h
    · exact fun h => h.1 j ip hpinned hhead

/-- The library adds a header for the netrc file or for credentials in the URL only. -/
theorem authorizes_eq_false_iff {current text : PyStr} :
    authorizes w current text = false ↔ w.netrc current = false ∧
      ∀ parts user password, urlparse w.url [] text = some parts →
        parts.credentials = some (user, password) → user = [] ∧ password = [] := by
  unfold authorizes
  rw [Bool.or_eq_false_iff]
  refine and_congr_right fun _ => ?_
  cases hparse : urlparse w.url [] text with
  | none => simp
  | some parts =>
      cases hboth : parts.credentials with
      | none =>
          refine iff_of_true (by simp [hboth]) ?_
          rintro parts' user password hsame hpair
          rw [← Option.some.inj hsame, hboth] at hpair
          contradiction
      | some both =>
          have hflag : ((some parts : Option UrlParts).bind UrlParts.credentials).any
              (fun c => !(c.1.isEmpty && c.2.isEmpty)) = false ↔ both.1 = [] ∧ both.2 = [] := by
            simp [hboth]
          rw [hflag]
          constructor
          · rintro hempty parts' user password hsame hpair
            rw [← Option.some.inj hsame, hboth] at hpair
            obtain rfl := Option.some.inj hpair
            exact hempty
          · exact fun h => h parts both.1 both.2 rfl hboth

/-- What the servers lead a request to is safe exactly when it is contained. -/
theorem contained_iff {k : Nat} (hsends : ∀ j ≤ k, Sends w allow url j) :
    Contained w allow url k ↔
      (pinnable w allow (route w url k) = true →
        (hopAt w allow url k).address ∈ validated w k (route w url k)) ∧
      (hopAt w allow url k).authorized = false := by
  have haddress := connects_mem_iff hsends (validated w k (route w url k))
  have hsilent := @authorizes_eq_false_iff IP w (route w url k) (sentText w url k)
  constructor
  · rintro ⟨hpinned, hunpinned, hnetrc, hcredentials⟩
    exact ⟨fun hpinnable => haddress.mpr ⟨hpinned hpinnable, hunpinned hpinnable⟩,
      hsilent.mpr ⟨hnetrc, hcredentials⟩⟩
  · rintro ⟨hconnected, hauthorized⟩
    obtain ⟨hnetrc, hcredentials⟩ := hsilent.mp hauthorized
    exact ⟨fun hpinnable => (haddress.mp (hconnected hpinnable)).1,
      fun hpinnable => (haddress.mp (hconnected hpinnable)).2, hnetrc, hcredentials⟩

/-- **A plainly spelled URL is pinned.**  A URL that starts with its own host, longer than
every earlier host that it starts with, goes to an address that was found for this
request. -/
theorem plain_pinned {k : Nat} {ip : IP} (hmatch : Matches w allow url k k)
    (hlonger : ∀ i < k, Matches w allow url k i → prefixLength w url i < prefixLength w url k)
    (hhead : (pinIps w k (route w url k)).head? = some ip) :
    PinnedBy w allow url k k ∧ ip ∈ validated w k (route w url k) := by
  refine ⟨⟨hmatch, fun i hi => ?_⟩, ?_⟩
  · rcases Nat.lt_or_eq_of_le hi.1 with hlt | rfl
    · exact ⟨(hlonger i hlt hi).le, fun _ => hlonger i hlt hi⟩
    · exact ⟨Nat.le_refl _, fun h => absurd h (Nat.lt_irrefl _)⟩
  · have hmem := List.mem_of_mem_head? (Option.mem_def.mpr hhead)
    obtain ⟨hresolved, hglobal⟩ := List.mem_filter.mp hmem
    exact List.mem_filter.mpr ⟨List.mem_append_right _ hresolved, hglobal⟩

/-! ## When a download was safe -/

/-- A host that resolves to one public address, an HTTP library that sends URLs as they are
and whose own connection reaches a private address, no netrc file, and a server that answers
with two bytes. -/
def sampleWeb : Web PyStr where
  url := ⟨lower, fun _ => true, fun _ => true⟩
  parseIp _ := none
  isGlobal ip := ip == py "93.184.215.14"
  resolve _ _ _ := [py "93.184.215.14"]
  prepare text := some text
  netrc _ := false
  dial _ _ := py "10.0.0.7"
  answer _ := .response { status := 200, chunks := [[1], [2]] }

/-- A signed URL with a user and no password. -/
def userUrl : PyStr :=
  py "https://user@files.example/model.onnx"

end FrigateXdna
