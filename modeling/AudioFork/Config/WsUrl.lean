import AudioFork.Config
import AudioFork.Lib.Decimal
import AudioFork.Lib.Delimited

/-!
# WsUrl — the URL of a fork

`ParsePort`, `SplitAuthority` and `ParseWsUrl` of `config.cpp`.  The parser knows three separators:
the first `/` ends the authority, and inside it the first `]` after a leading `[`, or else the last
`:`, ends the host.

* `renderUrl` writes an endpoint in one of the forms the parser reads, and `Readable` says which
  forms are read back; `splitAuthority_eq_some_iff` and `parseWsUrl_eq_ok_iff` describe the parser
  by them, in both directions;
* an endpoint is read back from every rendering of it, and a port text that is no port is refused;
* whether an accepted host is a host depends on the authority it was cut from: the parser looks for
  neither `?` nor `#`, and it splits an unbracketed IPv6 literal at its last colon.
-/

namespace AudioFork

open Lib (IsDigit value)

namespace Byte

abbrev slash : UInt8 := 47
abbrev colon : UInt8 := 58
abbrev openBracket : UInt8 := 91
abbrev closeBracket : UInt8 := 93
abbrev query : UInt8 := 63
abbrev fragment : UInt8 := 35

end Byte

open Byte

/-! ## The parser -/

def parsePortLoop : Nat → Text → Option Nat
  | value, [] => some value
  | value, digit :: text =>
    if digit < 48 ∨ 57 < digit then none else parsePortLoop (value * 10 + (digit.toNat - 48)) text

/-- Five digits stay below `10 ^ 5`, so the `unsigned` of the source does not wrap. -/
def parsePort (text : Text) : Option Nat :=
  if text.isEmpty ∨ 5 < text.length then none
  else
    match parsePortLoop 0 text with
    | none => none
    | some value => if value = 0 ∨ 65535 < value then none else some value

/-- The host, and the port text when the authority has one; `none` is a malformed authority. -/
def splitAuthority (authority : Text) : Option (Text × Option Text) :=
  if authority.head? = some openBracket then
    match Lib.cutFirst closeBracket authority with
    | none => none
    | some (before, rest) =>
      match rest with
      | [] => some (before.drop 1, none)
      | c :: portText => if c ≠ colon then none else some (before.drop 1, some portText)
  else
    match Lib.cutLast colon authority with
    | none => some (authority, none)
    | some (host, portText) => some (host, some portText)

def takeScheme (url : Text) : Option (Bool × Text) :=
  if (ascii "wss://").isPrefixOf url then some (true, url.drop 6)
  else if (ascii "ws://").isPrefixOf url then some (false, url.drop 5)
  else none

/-- What stands before the first `/`, all of it when there is none. -/
def authorityOf (rest : Text) : Text :=
  match Lib.cutFirst slash rest with
  | none => rest
  | some (authority, _) => authority

def pathOf (rest : Text) : Text :=
  match Lib.cutFirst slash rest with
  | none => ascii "/"
  | some (_, tail) => slash :: tail

def defaultPort (tls : Bool) : Nat := if tls then 443 else 80

/-- The port of the endpoint: the scheme's own when the authority carried none. -/
def portOf (tls : Bool) : Option Text → Option Nat
  | none => some (defaultPort tls)
  | some portText => parsePort portText

def parseWsUrl (url : Text) : Except Text Endpoint :=
  match takeScheme url with
  | none => .error (ascii "url must start with ws:// or wss://")
  | some (tls, rest) =>
    match splitAuthority (authorityOf rest) with
    | none => .error (ascii "url has a malformed host")
    | some (host, portText) =>
      if host.isEmpty then .error (ascii "url has no host")
      else
        match portOf tls portText with
        | none => .error (ascii "url has an invalid port")
        | some port => .ok { host, port, path := pathOf rest, tls }

/-! ## Rendering -/

def scheme (tls : Bool) : Text := if tls then ascii "wss://" else ascii "ws://"

def portSuffix : Option Text → Text
  | none => []
  | some portText => colon :: portText

def renderHost (bracketed : Bool) (host : Text) : Text :=
  if bracketed then openBracket :: (host ++ [closeBracket]) else host

def renderAuthority (bracketed : Bool) (host : Text) (portText : Option Text) : Text :=
  renderHost bracketed host ++ portSuffix portText

def renderUrl (e : Endpoint) (bracketed : Bool) (portText : Option Text) : Text :=
  scheme e.tls ++ (renderAuthority bracketed e.host portText ++ e.path)

/-- The renderings of a host and a port that are read back as they were written: in brackets no `]`
may stand in the host; plainly the authority must not look bracketed, and the last colon has to be
the one before the port. -/
def Readable (bracketed : Bool) (host : Text) (portText : Option Text) : Prop :=
  if bracketed then closeBracket ∉ host
  else (renderAuthority false host portText).head? ≠ some openBracket ∧
    match portText with
    | none => colon ∉ host
    | some text => colon ∉ text

/-- One to five decimal digits with a value from 1 to 65535. -/
def IsPortText (text : Text) : Prop :=
  (1 ≤ text.length ∧ text.length ≤ 5) ∧ (∀ d ∈ text, IsDigit d) ∧
    1 ≤ value text ∧ value text ≤ 65535

/-! ## Ports -/

theorem parsePortLoop_of_digits {text : Text} (h : ∀ d ∈ text, IsDigit d) (v : Nat) :
    parsePortLoop v text = some (Lib.valueFrom v text) := by
  induction text generalizing v with
  | nil => rfl
  | cons d text ih =>
    have hd : ¬(d < 48 ∨ 57 < d) := by
      rw [not_or, UInt8.not_lt, UInt8.not_lt]
      exact h d (by simp)
    rw [parsePortLoop, if_neg hd, ih fun e he => h e (by simp [he])]
    rfl

theorem digits_of_parsePortLoop {text : Text} {v n : Nat} (h : parsePortLoop v text = some n) :
    ∀ d ∈ text, IsDigit d := by
  induction text generalizing v with
  | nil => simp
  | cons d text ih =>
    by_cases hd : d < 48 ∨ 57 < d
    · simp [parsePortLoop, hd] at h
    · rw [parsePortLoop, if_neg hd] at h
      rw [not_or, UInt8.not_lt, UInt8.not_lt] at hd
      rintro e (_ | ⟨_, he⟩)
      · exact hd
      · exact ih h e he

theorem parsePort_eq_some_iff {text : Text} {n : Nat} :
    parsePort text = some n ↔ IsPortText text ∧ value text = n := by
  have hempty : text.isEmpty = true ↔ text.length = 0 := by simp
  constructor
  · intro h
    simp only [parsePort] at h
    split at h
    · cases h
    · next hlen =>
      rw [not_or, hempty] at hlen
      split at h
      · cases h
      · next v hv =>
        have hdigits := digits_of_parsePortLoop hv
        rw [parsePortLoop_of_digits hdigits] at hv
        obtain rfl : value text = v := Option.some.inj hv
        split at h
        · cases h
        · next hrange =>
          rw [not_or] at hrange
          exact ⟨⟨⟨by omega, by omega⟩, hdigits, by omega, by omega⟩, Option.some.inj h⟩
  · rintro ⟨⟨hlen, hdigits, hrange⟩, rfl⟩
    have hshort : ¬(text.isEmpty = true ∨ 5 < text.length) := by
      rw [hempty]
      omega
    have hbounds : ¬(value text = 0 ∨ 65535 < value text) := by omega
    rw [parsePort, if_neg hshort, parsePortLoop_of_digits hdigits]
    exact if_neg hbounds

theorem parsePort_eq_none {text : Text} (h : ¬IsPortText text) : parsePort text = none := by
  cases hp : parsePort text with
  | none => rfl
  | some n => exact absurd (parsePort_eq_some_iff.mp hp).1 h

/-- A numeral of a port, padded with zeros to at most five digits, is a port text. -/
theorem isPortText_padded {n k : Nat} (hn : 1 ≤ n ∧ n ≤ 65535)
    (hlen : (List.replicate k 48 ++ Lib.decimal n).length ≤ 5) :
    IsPortText (List.replicate k 48 ++ Lib.decimal n) := by
  have hpos : 0 < (Lib.decimal n).length := List.length_pos_iff.mpr (Lib.decimal_ne_nil n)
  refine ⟨⟨?_, hlen⟩, ?_, ?_⟩
  · rw [List.length_append]
    omega
  · intro d hd
    rcases List.mem_append.mp hd with hzero | hdigit
    · obtain rfl := List.eq_of_mem_replicate hzero
      decide
    · exact Lib.isDigit_of_mem_decimal hdigit
  · rw [Lib.value_zeros_append, Lib.value_decimal]
    exact hn

/-- Neither separator of an authority is a digit. -/
theorem not_mem_of_digits {text : Text} (h : ∀ d ∈ text, IsDigit d) {c : UInt8}
    (hc : ¬IsDigit c) : c ∉ text := fun hmem => hc (h c hmem)

/-! ## Authorities -/

theorem cutFirst_bracketed {host : Text} (h : closeBracket ∉ host) (tail : Text) :
    Lib.cutFirst closeBracket (openBracket :: (host ++ closeBracket :: tail)) =
      some (openBracket :: host, tail) := by
  refine Lib.cutFirst_append_cons (a := openBracket :: host) ?_ tail
  rw [List.mem_cons, not_or]
  exact ⟨by decide, h⟩

theorem splitAuthority_render {bracketed : Bool} {host : Text} {portText : Option Text}
    (h : Readable bracketed host portText) :
    splitAuthority (renderAuthority bracketed host portText) = some (host, portText) := by
  cases bracketed with
  | true =>
    have hcut := cutFirst_bracketed h (portSuffix portText)
    have hshape : renderAuthority true host portText =
        openBracket :: (host ++ closeBracket :: portSuffix portText) := by
      simp [renderAuthority, renderHost]
    rw [hshape]
    simp only [splitAuthority, List.head?_cons, if_true, hcut]
    cases portText <;> simp [portSuffix]
  | false =>
    obtain ⟨hopen, hcolon⟩ : (renderAuthority false host portText).head? ≠ some openBracket ∧ _ := h
    rw [splitAuthority, if_neg hopen]
    cases portText with
    | none =>
      have hnone : Lib.cutLast colon (renderAuthority false host none) = none := by
        simpa [Lib.cutLast_eq_none_iff, renderAuthority, renderHost, portSuffix] using hcolon
      rw [hnone]
      simp [renderAuthority, renderHost, portSuffix]
    | some text =>
      have hcut : Lib.cutLast colon (renderAuthority false host (some text)) = some (host, text) :=
        Lib.cutLast_append_cons host hcolon
      rw [hcut]

/-- Splitting inverts rendering: what the splitter returns is a readable rendering of the
authority, and every readable rendering is split into its parts. -/
theorem splitAuthority_eq_some_iff {authority host : Text} {portText : Option Text} :
    splitAuthority authority = some (host, portText) ↔
      ∃ bracketed, authority = renderAuthority bracketed host portText ∧
        Readable bracketed host portText := by
  constructor
  · intro h
    by_cases hopen : authority.head? = some openBracket
    · rw [splitAuthority, if_pos hopen] at h
      cases hcut : Lib.cutFirst closeBracket authority with
      | none => simp [hcut] at h
      | some parts =>
        obtain ⟨before, rest⟩ := parts
        rw [hcut] at h
        obtain ⟨rfl, hclose⟩ := Lib.cutFirst_eq_some_iff.mp hcut
        -- the leading bracket belongs to what stands before the closing one
        obtain ⟨inner, rfl⟩ : ∃ inner, before = openBracket :: inner := by
          cases before with
          | nil => exact absurd (Option.some.inj hopen) (by decide)
          | cons c inner => exact ⟨inner, by simpa using hopen⟩
        have hinner : closeBracket ∉ inner := fun hmem => hclose (List.mem_cons_of_mem _ hmem)
        refine ⟨true, ?_⟩
        cases rest with
        | nil =>
          obtain ⟨rfl, rfl⟩ : inner = host ∧ none = portText := by simpa using h
          exact ⟨by simp [renderAuthority, renderHost, portSuffix], hinner⟩
        | cons c text =>
          obtain ⟨rfl, rfl, rfl⟩ : c = colon ∧ inner = host ∧ some text = portText := by
            simpa using h
          exact ⟨by simp [renderAuthority, renderHost, portSuffix], hinner⟩
    · rw [splitAuthority, if_neg hopen] at h
      refine ⟨false, ?_⟩
      cases hcut : Lib.cutLast colon authority with
      | none =>
        obtain ⟨rfl, rfl⟩ : authority = host ∧ none = portText := by simpa [hcut] using h
        have hcolon := Lib.cutLast_eq_none_iff.mp hcut
        have hshape : renderAuthority false authority none = authority := by
          simp [renderAuthority, renderHost, portSuffix]
        exact ⟨hshape.symm, by rwa [hshape], hcolon⟩
      | some parts =>
        obtain ⟨before, text⟩ := parts
        obtain ⟨rfl, rfl⟩ : before = host ∧ some text = portText := by simpa [hcut] using h
        obtain ⟨rfl, hcolon⟩ := Lib.cutLast_eq_some hcut
        exact ⟨rfl, hopen, hcolon⟩
  · rintro ⟨bracketed, rfl, hread⟩
    exact splitAuthority_render hread

/-- Apart from the brackets and the colon before the port, an authority holds what its host and its
port text hold. -/
theorem mem_renderAuthority {c : UInt8} (hopen : c ≠ openBracket) (hclose : c ≠ closeBracket)
    (hcolon : c ≠ colon) {bracketed : Bool} {host : Text} {portText : Option Text} :
    c ∈ renderAuthority bracketed host portText ↔
      c ∈ host ∨ ∃ text, portText = some text ∧ c ∈ text := by
  have hhost : c ∈ renderHost bracketed host ↔ c ∈ host := by
    cases bracketed <;> simp [renderHost, hopen, hclose]
  have hsuffix : c ∈ portSuffix portText ↔ ∃ text, portText = some text ∧ c ∈ text := by
    cases portText <;> simp [portSuffix, hcolon]
  rw [renderAuthority, List.mem_append, hhost, hsuffix]

/-! ## URLs -/

@[simp] theorem takeScheme_scheme (tls : Bool) (rest : Text) :
    takeScheme (scheme tls ++ rest) = some (tls, rest) := by
  cases tls <;> rfl

theorem takeScheme_eq_some {url rest : Text} {tls : Bool} (h : takeScheme url = some (tls, rest)) :
    url = scheme tls ++ rest := by
  simp only [takeScheme] at h
  split at h
  · next hwss =>
    obtain ⟨tail, rfl⟩ := List.isPrefixOf_iff_prefix.mp hwss
    obtain ⟨rfl, rfl⟩ : true = tls ∧ _ = rest := by simpa using h
    rfl
  · split at h
    · next hws =>
      obtain ⟨tail, rfl⟩ := List.isPrefixOf_iff_prefix.mp hws
      obtain ⟨rfl, rfl⟩ : false = tls ∧ _ = rest := by simpa using h
      rfl
    · cases h

theorem cutFirst_slash {authority path : Text} (ha : slash ∉ authority)
    (hp : path.head? = some slash) :
    Lib.cutFirst slash (authority ++ path) = some (authority, path.drop 1) := by
  cases path with
  | nil => simp at hp
  | cons c tail =>
    obtain rfl : c = slash := by simpa using hp
    exact Lib.cutFirst_append_cons ha tail

theorem authorityOf_append {authority path : Text} (ha : slash ∉ authority)
    (hp : path.head? = some slash) : authorityOf (authority ++ path) = authority := by
  rw [authorityOf, cutFirst_slash ha hp]

theorem pathOf_append {authority path : Text} (ha : slash ∉ authority)
    (hp : path.head? = some slash) : pathOf (authority ++ path) = path := by
  rw [pathOf, cutFirst_slash ha hp]
  cases path with
  | nil => simp at hp
  | cons c tail =>
    obtain rfl : c = slash := by simpa using hp
    rfl

/-- The text after the scheme is the authority, followed by the path unless the path was left
out. -/
theorem authority_append_path (rest : Text) :
    slash ∉ authorityOf rest ∧
      (rest = authorityOf rest ++ pathOf rest ∨ rest = authorityOf rest) := by
  simp only [authorityOf, pathOf]
  cases hcut : Lib.cutFirst slash rest with
  | none => exact ⟨Lib.cutFirst_eq_none_iff.mp hcut, .inr rfl⟩
  | some parts =>
    obtain ⟨hrest, hslash⟩ := Lib.cutFirst_eq_some_iff.mp hcut
    exact ⟨hslash, .inl hrest⟩

/-- What an accepted URL is: a scheme, a readable rendering of the host and a port text, and the
path. -/
theorem parseWsUrl_eq_ok_iff {url : Text} {e : Endpoint} :
    parseWsUrl url = .ok e ↔
      ∃ rest bracketed portText, url = scheme e.tls ++ rest ∧ pathOf rest = e.path ∧
        authorityOf rest = renderAuthority bracketed e.host portText ∧
        Readable bracketed e.host portText ∧ e.host ≠ [] ∧ portOf e.tls portText = some e.port := by
  constructor
  · intro h
    simp only [parseWsUrl] at h
    split at h
    · cases h
    · next tls rest hscheme =>
      split at h
      · cases h
      · next host portText hsplit =>
        split at h
        · cases h
        · next hhost =>
          split at h
          · cases h
          · next port hport =>
            obtain rfl := Except.ok.inj h
            obtain ⟨bracketed, hshape, hread⟩ := splitAuthority_eq_some_iff.mp hsplit
            exact ⟨rest, bracketed, portText, takeScheme_eq_some hscheme, rfl, hshape, hread,
              by simpa using hhost, hport⟩
  · rintro ⟨rest, bracketed, portText, rfl, hpath, hshape, hread, hhost, hport⟩
    have hsplit := splitAuthority_render hread
    rw [← hshape] at hsplit
    have hne : ¬(e.host.isEmpty = true) := by simpa using hhost
    simp [parseWsUrl, hsplit, hne, hport, hpath]

/-! ## Endpoints are read back -/

/-- The forms an endpoint may be written in: in brackets, or plainly when it does not start like a
bracketed host. -/
def Renderable (bracketed : Bool) (host : Text) : Prop :=
  if bracketed then closeBracket ∉ host else host.head? ≠ some openBracket

theorem readable_some {bracketed : Bool} {host text : Text} (hhost : host ≠ [])
    (hform : Renderable bracketed host) (hcolon : colon ∉ text) :
    Readable bracketed host (some text) := by
  cases bracketed with
  | true => exact hform
  | false =>
    have hhead : (host ++ colon :: text).head? = host.head? := List.head?_append_of_ne_nil _ hhost
    exact ⟨fun hopen => hform (hhead.symm.trans hopen), hcolon⟩

theorem readable_none {bracketed : Bool} {host : Text}
    (hform : Renderable bracketed host) (hcolon : bracketed = true ∨ colon ∉ host) :
    Readable bracketed host none := by
  cases bracketed with
  | true => exact hform
  | false =>
    have hshape : renderAuthority false host none = host := List.append_nil host
    exact ⟨by rw [hshape]; exact hform, hcolon.resolve_left (by decide)⟩

/-- What the parser makes of a rendering: only the port text is left to decide. -/
theorem parseWsUrl_render {e : Endpoint} {bracketed : Bool} {portText : Option Text}
    (hpath : e.path.head? = some slash) (hhost : e.host ≠ []) (hslash : slash ∉ e.host)
    (htext : ∀ text, portText = some text → slash ∉ text)
    (hread : Readable bracketed e.host portText) :
    parseWsUrl (renderUrl e bracketed portText) =
      match portOf e.tls portText with
      | none => .error (ascii "url has an invalid port")
      | some port => .ok { e with port } := by
  have hauth : slash ∉ renderAuthority bracketed e.host portText := by
    rw [mem_renderAuthority (by decide) (by decide) (by decide)]
    rintro (hmem | ⟨text, rfl, hmem⟩)
    · exact hslash hmem
    · exact htext text rfl hmem
  have hne : ¬(e.host.isEmpty = true) := by simpa using hhost
  simp only [parseWsUrl, renderUrl, takeScheme_scheme, authorityOf_append hauth hpath,
    pathOf_append hauth hpath, splitAuthority_render hread, if_neg hne]

/-- Every endpoint is read back from each of its renderings, with the port written out, padded or
not, or left to the scheme; and the same URL with a port text that is no port is refused. -/
theorem parseWsUrl_inverts_rendering (e : Endpoint) (bracketed : Bool)
    (hport : 1 ≤ e.port ∧ e.port ≤ 65535) (hpath : e.path.head? = some slash)
    (hhost : e.host ≠ []) (hslash : slash ∉ e.host) (hform : Renderable bracketed e.host) :
    (∀ zeros, (List.replicate zeros 48 ++ Lib.decimal e.port).length ≤ 5 →
      parseWsUrl (renderUrl e bracketed (some (List.replicate zeros 48 ++ Lib.decimal e.port))) =
        .ok e) ∧
    (e.port = defaultPort e.tls → bracketed = true ∨ colon ∉ e.host →
      parseWsUrl (renderUrl e bracketed none) = .ok e) ∧
    (∀ text, slash ∉ text → colon ∉ text → ¬IsPortText text →
      ∃ error, error ≠ [] ∧ parseWsUrl (renderUrl e bracketed (some text)) = .error error) := by
  refine ⟨?_, ?_, ?_⟩
  · intro zeros hlen
    have htext := isPortText_padded hport hlen
    have hvalue : parsePort (List.replicate zeros 48 ++ Lib.decimal e.port) = some e.port := by
      refine parsePort_eq_some_iff.mpr ⟨htext, ?_⟩
      rw [Lib.value_zeros_append, Lib.value_decimal]
    have hcolon := not_mem_of_digits htext.2.1 (c := colon) (by decide)
    have hnoslash := not_mem_of_digits htext.2.1 (c := slash) (by decide)
    rw [parseWsUrl_render hpath hhost hslash (by rintro _ ⟨⟩; exact hnoslash)
      (readable_some hhost hform hcolon)]
    simp [portOf, hvalue]
  · intro hdefault hcolon
    rw [parseWsUrl_render hpath hhost hslash (by simp) (readable_none hform hcolon)]
    simp [portOf, ← hdefault]
  · intro text hnoslash hcolon hbad
    refine ⟨ascii "url has an invalid port", by decide, ?_⟩
    rw [parseWsUrl_render hpath hhost hslash (by rintro _ ⟨⟩; exact hnoslash)
      (readable_some hhost hform hcolon)]
    simp [portOf, parsePort_eq_none hbad]

theorem parseWsUrl_inverts_rendering_ipv6 :
    parseWsUrl (renderUrl ⟨ascii "::1", 80, ascii "/a?b:c]", false⟩ true none) =
      .ok ⟨ascii "::1", 80, ascii "/a?b:c]", false⟩ :=
  (parseWsUrl_inverts_rendering ⟨ascii "::1", 80, ascii "/a?b:c]", false⟩ true (by decide)
    (by decide) (by decide) (by decide) (by unfold Renderable; decide)).2.1 rfl (.inl rfl)

/-! ## Accepted hosts -/

/-- The text between the scheme and the first `/`. -/
def authorityText (url : Text) : Text :=
  match takeScheme url with
  | none => []
  | some (_, rest) => authorityOf rest

def Bracketed (url : Text) : Prop := (authorityText url).head? = some openBracket

instance (url : Text) : Decidable (Bracketed url) := inferInstanceAs (Decidable (_ = _))

/-- The host is a host: none of the characters that end one stand in it, a colon only if it was
written in brackets.  A query string is then part of the path, and an IPv6 literal without brackets
is not among the accepted URLs. -/
structure HostIsHost (url : Text) (e : Endpoint) : Prop where
  noSlash : slash ∉ e.host
  noQuery : query ∉ e.host
  noFragment : fragment ∉ e.host
  colonBracketed : colon ∈ e.host → Bracketed url
  queryInPath : ∀ before text, url = before ++ query :: text → query ∉ before →
    query :: text <:+ e.path
  noBareLiteral : 2 ≤ (authorityText url).count colon → Bracketed url

/-- The authority holds no `?` and no `#`, and more than one colon only in brackets. -/
def CleanAuthority (url : Text) : Prop :=
  query ∉ authorityText url ∧ fragment ∉ authorityText url ∧
    (Bracketed url ∨ (authorityText url).count colon ≤ 1)

/-- The port text of an accepted URL is made of digits. -/
theorem not_mem_portText {tls : Bool} {portText : Option Text} {port : Nat}
    (h : portOf tls portText = some port) {c : UInt8} (hc : ¬IsDigit c) :
    ¬∃ text, portText = some text ∧ c ∈ text := by
  rintro ⟨text, rfl, hmem⟩
  exact not_mem_of_digits (parsePort_eq_some_iff.mp h).1.2.1 hc hmem

theorem mem_authority_iff {e : Endpoint} {bracketed : Bool} {portText : Option Text}
    (hport : portOf e.tls portText = some e.port) {c : UInt8} (hopen : c ≠ openBracket)
    (hclose : c ≠ closeBracket) (hcolon : c ≠ colon) (hdigit : ¬IsDigit c) :
    c ∈ renderAuthority bracketed e.host portText ↔ c ∈ e.host := by
  rw [mem_renderAuthority hopen hclose hcolon]
  exact or_iff_left (not_mem_portText hport hdigit)

/-- A plainly written authority has one colon more than its host when it has a port, and none
without one. -/
theorem colon_mem_host_iff {host : Text} {portText : Option Text}
    (hread : Readable false host portText) :
    colon ∈ host ↔ 2 ≤ (renderAuthority false host portText).count colon := by
  cases portText with
  | none =>
    have hcolon : colon ∉ host := hread.2
    simp [renderAuthority, renderHost, portSuffix, hcolon, List.count_eq_zero_of_not_mem hcolon]
  | some text =>
    have hcolon : colon ∉ text := hread.2
    have hcount : (renderAuthority false host (some text)).count colon = host.count colon + 1 := by
      simp [renderAuthority, renderHost, portSuffix, List.count_eq_zero_of_not_mem hcolon]
    rw [hcount, ← List.count_pos_iff]
    omega

theorem bracketed_renderAuthority {bracketed : Bool} {host : Text} {portText : Option Text}
    (hread : Readable bracketed host portText) :
    (renderAuthority bracketed host portText).head? = some openBracket ↔ bracketed = true := by
  cases bracketed with
  | true => simp [renderAuthority, renderHost]
  | false => exact iff_of_false hread.1 (by decide)

/-- With no `?` in the authority, the query starts in the path. -/
theorem query_suffix_path {tls : Bool} {rest before text : Text} (hauth : query ∉ authorityOf rest)
    (hurl : scheme tls ++ rest = before ++ query :: text) : query :: text <:+ pathOf rest := by
  have hscheme : query ∉ scheme tls := by cases tls <;> decide
  have hrest := Lib.suffix_of_append hscheme hurl
  obtain ⟨-, hsplit | hsplit⟩ := authority_append_path rest
  · obtain ⟨mid, hmid⟩ := hrest
    exact Lib.suffix_of_append hauth (hsplit.symm.trans hmid.symm)
  · exact absurd (hsplit ▸ hrest.mem List.mem_cons_self) hauth

/-- An accepted host is a host exactly when the authority it was cut from has neither a `?` nor a
`#` in it, and more than one colon only in brackets. -/
theorem acceptedHost_iff {url : Text} {e : Endpoint} (h : parseWsUrl url = .ok e) :
    HostIsHost url e ↔ CleanAuthority url := by
  obtain ⟨rest, bracketed, portText, rfl, hpath, hshape, hread, -, hport⟩ :=
    parseWsUrl_eq_ok_iff.mp h
  have htext : authorityText (scheme e.tls ++ rest) = renderAuthority bracketed e.host portText := by
    simp [authorityText, hshape]
  have hbracketed : Bracketed (scheme e.tls ++ rest) ↔ bracketed = true := by
    rw [Bracketed, htext, bracketed_renderAuthority hread]
  have hquery : query ∈ renderAuthority bracketed e.host portText ↔ query ∈ e.host :=
    mem_authority_iff hport (by decide) (by decide) (by decide) (by decide)
  have hfragment : fragment ∈ renderAuthority bracketed e.host portText ↔ fragment ∈ e.host :=
    mem_authority_iff hport (by decide) (by decide) (by decide) (by decide)
  have hslash : slash ∉ e.host := by
    have hauth := (authority_append_path rest).1
    rwa [hshape, mem_authority_iff hport (by decide) (by decide) (by decide) (by decide)] at hauth
  rw [CleanAuthority, hbracketed, htext, hquery, hfragment]
  constructor
  · intro hhost
    refine ⟨hhost.noQuery, hhost.noFragment, ?_⟩
    cases bracketed with
    | true => exact .inl rfl
    | false =>
      right
      by_contra hcolons
      have hmem := (colon_mem_host_iff hread).mpr (by omega)
      exact absurd (hbracketed.mp (hhost.colonBracketed hmem)) (by decide)
  · rintro ⟨hnoquery, hnofragment, hcolons⟩
    have hcolon : 2 ≤ (renderAuthority bracketed e.host portText).count colon →
        Bracketed (scheme e.tls ++ rest) := by
      intro hcount
      exact hbracketed.mpr (hcolons.resolve_right (by omega))
    refine ⟨hslash, hnoquery, hnofragment, ?_, ?_, by rwa [htext]⟩
    · intro hmem
      cases bracketed with
      | true => exact hbracketed.mpr rfl
      | false => exact hcolon ((colon_mem_host_iff hread).mp hmem)
    · intro before text hurl _
      rw [← hpath]
      exact query_suffix_path (by rwa [hshape, hquery]) hurl

theorem acceptedHost_iff_example :
    HostIsHost (ascii "ws://h:9/a?b") ⟨ascii "h", 9, ascii "/a?b", false⟩ ↔
      CleanAuthority (ascii "ws://h:9/a?b") :=
  acceptedHost_iff rfl

/-- A query right after the host is taken for a part of it, and an IPv6 literal without brackets
loses its last group to the port. -/
theorem query_and_literal_in_host :
    (∃ e, parseWsUrl (ascii "ws://host?x=1") = .ok e ∧ e.host = ascii "host?x=1" ∧
      ¬HostIsHost (ascii "ws://host?x=1") e) ∧
    ∃ e, parseWsUrl (ascii "ws://::1") = .ok e ∧ (e.host, e.port) = (ascii ":", 1) ∧
      ¬HostIsHost (ascii "ws://::1") e := by
  refine ⟨⟨⟨ascii "host?x=1", 80, ascii "/", false⟩, rfl, rfl, ?_⟩,
    ⟨ascii ":", 1, ascii "/", false⟩, rfl, rfl, ?_⟩
  · intro hhost
    exact absurd hhost.noQuery (by decide)
  · intro hhost
    exact absurd (hhost.noBareLiteral (by decide)) (by decide)

end AudioFork
