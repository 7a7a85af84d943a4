import FrigateXdna.Python.Text

/-!
# URLs as urllib.parse reads them

{lit}`urlparse` and {lit}`urljoin` on text.  The check of a bracketed host needs the syntax
of IP addresses, the check of a network location needs Unicode normalization, and
{lit}`str.lower` needs the Unicode tables; these three are parameters.

Main results:

- Definition {lit}`urlparse`: scheme, network location, path, parameters, query, fragment.
- Definition {lit}`UrlParts.hostname`: the host without user information and port.
- Definition {lit}`urljoin`: a reference relative to a base.
- Theorem {lit}`hostname_plain`: the host of a location without user information.
-/

namespace FrigateXdna
namespace Python

/-- What {lit}`urllib.parse` asks the rest of the interpreter. -/
structure UrlEnv where
  lower : PyStr → PyStr
  bracketOk : PyStr → Bool
  netlocOk : PyStr → Bool

/-! ## Splitting texts -/

/-- The texts before and after the first occurrence of a character. -/
def splitFirst (c : Nat) : PyStr → Option (PyStr × PyStr)
  | [] => none
  | d :: rest =>
      if d = c then some ([], rest) else (splitFirst c rest).map fun p => (d :: p.1, p.2)

/-- The texts before and after the last occurrence of a character. -/
def splitLast (c : Nat) : PyStr → Option (PyStr × PyStr)
  | [] => none
  | d :: rest =>
      match splitLast c rest with
      | some p => some (d :: p.1, p.2)
      | none => if d = c then some ([], rest) else none

theorem splitLast_eq_none {c : Nat} {s : PyStr} (h : c ∉ s) : splitLast c s = none := by
  induction s with
  | nil => rfl
  | cons d rest ih =>
      have hd : d ≠ c := fun e => h (e ▸ List.mem_cons_self)
      have hrest := ih fun hmem => h (List.mem_cons_of_mem d hmem)
      simp [splitLast, hrest, hd]

theorem splitFirst_eq_none {c : Nat} {s : PyStr} (h : c ∉ s) : splitFirst c s = none := by
  induction s with
  | nil => rfl
  | cons d rest ih =>
      have hd : d ≠ c := fun e => h (e ▸ List.mem_cons_self)
      have hrest := ih fun hmem => h (List.mem_cons_of_mem d hmem)
      simp [splitFirst, hrest, hd]

/-- {lit}`text.split(c)`. -/
def splitAll (c : Nat) : PyStr → List PyStr
  | [] => [[]]
  | d :: rest =>
      match splitAll c rest with
      | [] => [[]]
      | part :: parts => if d = c then [] :: part :: parts else (d :: part) :: parts

/-! ## Schemes -/

/-- An ASCII letter. -/
def isAsciiAlpha (c : Nat) : Bool :=
  decide (65 ≤ c ∧ c ≤ 90 ∨ 97 ≤ c ∧ c ≤ 122)

/-- {lit}`scheme_chars`. -/
def isSchemeChar (c : Nat) : Bool :=
  isAsciiAlpha c || decide (48 ≤ c ∧ c ≤ 57) || c == 43 || c == 45 || c == 46

/-- {lit}`uses_relative`. -/
def usesRelative : List PyStr :=
  [[], py "ftp", py "http", py "gopher", py "nntp", py "imap", py "wais", py "file", py "https",
    py "shttp", py "mms", py "prospero", py "rtsp", py "rtsps", py "rtspu", py "sftp", py "svn",
    py "svn+ssh", py "ws", py "wss"]

/-- {lit}`uses_netloc`. -/
def usesNetloc : List PyStr :=
  [[], py "ftp", py "http", py "gopher", py "nntp", py "telnet", py "imap", py "wais", py "file",
    py "mms", py "https", py "shttp", py "snews", py "prospero", py "rtsp", py "rtsps",
    py "rtspu", py "rsync", py "svn", py "svn+ssh", py "sftp", py "nfs", py "git", py "git+ssh",
    py "ws", py "wss"]

/-- {lit}`uses_params`. -/
def usesParams : List PyStr :=
  [[], py "ftp", py "hdl", py "prospero", py "http", py "imap", py "https", py "shttp",
    py "rtsp", py "rtsps", py "rtspu", py "sip", py "sips", py "mms", py "sftp", py "tel"]

/-! ## Parsing -/

/-- What {lit}`urlparse` returns. -/
structure UrlParts where
  scheme : PyStr
  netloc : PyStr
  path : PyStr
  params : PyStr
  query : PyStr
  fragment : PyStr
deriving DecidableEq, Repr

/-- The scheme of a URL, in lower case, and what follows its colon. -/
def splitScheme (fallback url : PyStr) : PyStr × PyStr :=
  match url, splitFirst 58 url with
  | c :: _, some (head, rest) =>
      if isAsciiAlpha c && head.all isSchemeChar then (lower head, rest) else (fallback, url)
  | _, _ => (fallback, url)

/-- {lit}`_splitnetloc` after two slashes. -/
def splitNetloc (url : PyStr) : PyStr × PyStr :=
  match url with
  | 47 :: 47 :: rest =>
      (rest.takeWhile fun c => c != 47 && c != 63 && c != 35,
        rest.dropWhile fun c => c != 47 && c != 63 && c != 35)
  | _ => ([], url)

/-- Whether the brackets of a network location are those of an address. -/
def bracketsOk (env : UrlEnv) (netloc : PyStr) : Bool :=
  if netloc.contains 91 && netloc.contains 93 then
    let inner := ((splitFirst 91 netloc).map Prod.snd).getD []
    env.bracketOk (((splitFirst 93 inner).map Prod.fst).getD inner)
  else !netloc.contains 91 && !netloc.contains 93

/-- {lit}`_splitparams`: the parameters of the last path segment. -/
def splitParams (path : PyStr) : PyStr × PyStr :=
  match splitLast 47 path with
  | some (front, segment) =>
      match splitFirst 59 segment with
      | some (name, params) => (front ++ 47 :: name, params)
      | none => (path, [])
  | none => (splitFirst 59 path).getD (path, [])

/-- {lit}`urlparse(url, scheme)`; {lean}`none` is a {lit}`ValueError`. -/
def urlparse (env : UrlEnv) (fallback url : PyStr) : Option UrlParts :=
  let url := (url.dropWhile fun c => decide (c ≤ 32)).filter fun c =>
    c != 9 && c != 13 && c != 10
  let (scheme, rest) := splitScheme fallback url
  let (netloc, rest) := splitNetloc rest
  if bracketsOk env netloc && env.netlocOk netloc then
    let (rest, fragment) := (splitFirst 35 rest).getD (rest, [])
    let (path, query) := (splitFirst 63 rest).getD (rest, [])
    let (path, params) :=
      if usesParams.contains scheme && path.contains 59 then splitParams path else (path, [])
    some ⟨scheme, netloc, path, params, query, fragment⟩
  else none

namespace UrlParts

/-- The network location without user information. -/
def hostinfo (p : UrlParts) : PyStr :=
  ((splitLast 64 p.netloc).map Prod.snd).getD p.netloc

/-- The {lit}`username` and the {lit}`password`, where the network location has both. -/
def credentials (p : UrlParts) : Option (PyStr × PyStr) :=
  (splitLast 64 p.netloc).bind fun info => splitFirst 58 info.1

/-- The host as it is written. -/
def rawHost (p : UrlParts) : PyStr :=
  match splitFirst 91 p.hostinfo with
  | some (_, bracketed) => ((splitFirst 93 bracketed).map Prod.fst).getD bracketed
  | none => ((splitFirst 58 p.hostinfo).map Prod.fst).getD p.hostinfo

/-- {lit}`hostname`: in lower case up to a zone. -/
def hostname (env : UrlEnv) (p : UrlParts) : Option PyStr :=
  if p.rawHost.isEmpty then none
  else
    match splitFirst 37 p.rawHost with
    | some (host, zone) => some (env.lower host ++ 37 :: zone)
    | none => some (env.lower p.rawHost)

/-- {lit}`urlunparse`. -/
def unparse (p : UrlParts) : PyStr :=
  let url := if p.params.isEmpty then p.path else p.path ++ 59 :: p.params
  let url :=
    if !p.netloc.isEmpty || !p.scheme.isEmpty && usesNetloc.contains p.scheme ||
        startsWith (py "//") url then
      let url := if !url.isEmpty && url.head? != some 47 then 47 :: url else url
      py "//" ++ p.netloc ++ url
    else url
  let url := if p.scheme.isEmpty then url else p.scheme ++ 58 :: url
  let url := if p.query.isEmpty then url else url ++ 63 :: p.query
  if p.fragment.isEmpty then url else url ++ 35 :: p.fragment

/-- The host of a location without user information and brackets is what stands before its
colon. -/
theorem hostname_plain {env : UrlEnv} {p : UrlParts} {host : PyStr} (hne : host ≠ [])
    (hat : 64 ∉ p.netloc) (hbracket : 91 ∉ p.netloc) (hzone : 37 ∉ host)
    (hhost : ((splitFirst 58 p.netloc).map Prod.fst).getD p.netloc = host) :
    p.hostname env = some (env.lower host) := by
  have hinfo : p.hostinfo = p.netloc := by
    rw [hostinfo, splitLast_eq_none hat]
    rfl
  have hraw : p.rawHost = host := by
    rw [rawHost, hinfo, splitFirst_eq_none hbracket]
    exact hhost
  simp [hostname, hraw, hne, splitFirst_eq_none hzone]

end UrlParts

/-! ## Joining -/

/-- One segment of a path that is resolved; the segments so far are in reverse. -/
def resolveSegment (resolved : List PyStr) (segment : PyStr) : List PyStr :=
  if segment = py ".." then resolved.tail
  else if segment = py "." then resolved
  else segment :: resolved

/-- The segments with empty ones in the middle removed. -/
def dropEmptyMiddle : List PyStr → List PyStr
  | [] => []
  | first :: rest =>
      first :: ((rest.dropLast.filter fun s => !s.isEmpty) ++ rest.getLast?.toList)

/-- The path of a reference relative to the path of a base. -/
def resolvePath (basePath path : PyStr) : PyStr :=
  let parts := splitAll 47 basePath
  let parts := if parts.getLast? = some [] then parts else parts.dropLast
  let segments :=
    if path.head? = some 47 then splitAll 47 path
    else dropEmptyMiddle (parts ++ splitAll 47 path)
  let resolved := (segments.foldl resolveSegment []).reverse
  let resolved :=
    if segments.getLast? = some (py ".") ∨ segments.getLast? = some (py "..") then
      resolved ++ [[]]
    else resolved
  let joined := (resolved.intersperse [47]).flatten
  if joined.isEmpty then [47] else joined

/-- {lit}`urljoin(base, url)`; {lean}`none` is a {lit}`ValueError`. -/
def urljoin (env : UrlEnv) (base url : PyStr) : Option PyStr :=
  if base.isEmpty then some url
  else if url.isEmpty then some base
  else
    match urlparse env [] base with
    | none => none
    | some b =>
        match urlparse env b.scheme url with
        | none => none
        | some u =>
            if u.scheme ≠ b.scheme ∨ usesRelative.contains u.scheme = false then some url
            else if usesNetloc.contains u.scheme && !u.netloc.isEmpty then some u.unparse
            else
              let netloc := if usesNetloc.contains u.scheme then b.netloc else u.netloc
              if u.path.isEmpty && u.params.isEmpty then
                some { u with
                  netloc, path := b.path, params := b.params
                  query := if u.query.isEmpty then b.query else u.query }.unparse
              else some { u with netloc, path := resolvePath b.path u.path }.unparse

end Python
end FrigateXdna
