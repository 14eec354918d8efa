import Libevent.Proofs.Http.Uri

/-!
# `Libevent.Proofs.Http.UriSet`: URIs that are built with the setters

Each setter checks its own component. `SetOk` says what the checks give together, for every sequence
of calls. What they do not give is that the components stand together: `JoinSafe` is what is
missing, and `sets_join_parse_iff` says that it is exactly the condition under which the parser
finds the components again in the text that `evhttp_uri_join` has written.

`evutil_inet_pton` is a parameter. It reads its words with `strtol` and an IPv4 address behind them
with `sscanf`, so that it accepts an `x`, signs and white space besides digits, colons and dots. The
results assume only that a text which it accepts holds none of `@`, `/`, `?` and `#`.
-/

namespace Libevent

open Lib

variable {inetPton6 : Bytes → Bool} {u : EvhttpUri} {s : Bytes} {v : EvhttpUri}
  {calls : List UriSetter} {host : Bytes}

/-! ### What one setter checks -/

/-- The check of `evhttp_uri_set_host`. -/
def setHostOk (inetPton6 : Bytes → Bool) (host : Bytes) : Bool :=
  if host.head? = some LBRACKET then bracketAddrOk inetPton6 host else regnameOk host

/-- Every component has passed the check of its setter. -/
structure SetOk (inetPton6 : Bytes → Bool) (u : EvhttpUri) : Prop where
  flags : u.flags = 0
  scheme : ∀ x ∈ u.scheme, schemeOk x = true
  userinfo : ∀ x ∈ u.userinfo, userinfoOk x = true
  host : ∀ x ∈ u.host, setHostOk inetPton6 x = true
  port : -1 ≤ u.port
  path : ∀ x ∈ u.path, endOfPath x .path 0 = []
  query : ∀ x ∈ u.query, endOfPath x .query 0 = []
  fragment : ∀ x ∈ u.fragment, endOfPath x .fragment 0 = []

theorem setOk_new : SetOk inetPton6 evhttpUriNew := by
  constructor <;> simp [evhttpUriNew]

/-- What one call to a setter keeps. -/
theorem SetOk.set (h : SetOk inetPton6 u) {call : UriSetter}
    (hcall : evhttpUriSet inetPton6 u call = some v) : SetOk inetPton6 v := by
  cases call with
  | port port =>
    rw [evhttpUriSet] at hcall
    split at hcall
    · cases hcall
    · cases hcall
      exact { h with port := by dsimp only; omega }
  | _ x =>
    rw [evhttpUriSet] at hcall
    split at hcall
    · next hok =>
      cases hcall
      simp only [Option.all_eq_true, decide_eq_true_eq, h.flags] at hok
      first
        | exact { h with scheme := hok }
        | exact { h with userinfo := hok }
        | exact { h with host := hok }
        | exact { h with path := hok }
        | exact { h with query := hok }
        | exact { h with fragment := hok }
    · cases hcall

/-- What a sequence of calls keeps. -/
theorem SetOk.foldlM (h : SetOk inetPton6 u)
    (hcalls : calls.foldlM (evhttpUriSet inetPton6) u = some v) : SetOk inetPton6 v := by
  induction calls generalizing u with
  | nil =>
    cases hcalls
    exact h
  | cons call calls ih =>
    obtain ⟨w, hcall, hrest⟩ := Option.bind_eq_some_iff.mp hcalls
    exact ih (h.set hcall) hrest

theorem setOk_of_sets (h : evhttpUriSets inetPton6 calls = some u) : SetOk inetPton6 u :=
  setOk_new.foldlM h

/-! ### Hosts -/

/-- The three parts of an address in brackets. -/
theorem bracketAddr_parts (h : bracketAddrOk inetPton6 s = true) :
    ∃ b inner, s = LBRACKET :: b :: inner ++ [RBRACKET] ∧
      (ipvFutureOk inner = true ∧ b = 118 ∨ inetPton6 (b :: inner) = true) := by
  unfold bracketAddrOk at h
  split at h
  · cases h
  next hshape =>
  simp only [Bool.or_eq_true, decide_eq_true_eq, not_or, not_not] at hshape
  obtain ⟨⟨hlen, hhead⟩, hlast⟩ := hshape
  obtain ⟨rest, rfl⟩ : ∃ rest, s = LBRACKET :: rest := by
    cases s with
    | nil => cases hhead
    | cons c rest => exact ⟨rest, by rw [Option.some.inj hhead]⟩
  have hne : rest ≠ [] := by
    rintro rfl
    simp at hlen
  have hend : rest.dropLast ++ [RBRACKET] = rest := by
    rw [List.getLast?_cons_of_ne_nil hne] at hlast
    exact List.dropLast_append_getLast? RBRACKET hlast
  split at h
  · cases h
  next b inner hinner =>
  rw [List.tail_cons] at hinner
  refine ⟨b, inner, by rw [List.cons_append, ← hinner, hend], ?_⟩
  split at h
  · next hb => exact .inl ⟨h, hb⟩
  · rw [Bool.and_eq_true] at h
    exact .inr h.2

theorem ipvFuture_ne (h : ipvFutureOk s = true) {b : UInt8} (hb : b ∈ s) :
    b ≠ AT ∧ authorityChar b = true := by
  unfold ipvFutureOk at h
  rw [Bool.and_eq_true] at h
  rw [← List.takeWhile_append_dropWhile (p := isXdigit) (l := s), List.mem_append] at hb
  rcases hb with hb | hb
  · exact xdigit_ne (List.mem_takeWhile_imp hb)
  split at h
  · cases h.2
  next c rest hrest =>
  rw [hrest, List.mem_cons] at hb
  rw [Bool.and_eq_true, decide_eq_true_eq] at h
  rcases hb with rfl | hb
  · rw [h.2.1]
    decide
  · exact ne_of_class (List.all_eq_true.mp h.2.2 b hb) (by decide)

section
variable (hpton : ∀ x, inetPton6 x = true → ∀ b ∈ x, b ≠ AT ∧ authorityChar b = true)
include hpton

/-- An address in brackets holds no byte that ends the userinfo or the authority. -/
theorem bracketAddr_ne (h : bracketAddrOk inetPton6 s = true) {c : UInt8} (hc : c ∈ s) :
    c ≠ AT ∧ authorityChar c = true := by
  obtain ⟨b, inner, rfl, hinner⟩ := bracketAddr_parts h
  have hmem : c = LBRACKET ∨ c ∈ b :: inner ∨ c = RBRACKET := by
    simpa [or_assoc] using hc
  rcases hmem with rfl | hc | rfl
  · decide
  · rcases hinner with ⟨hfuture, rfl⟩ | hsix
    · rcases List.mem_cons.mp hc with rfl | hc
      · decide
      · exact ipvFuture_ne hfuture hc
    · exact hpton _ hsix c hc
  · decide

theorem setHost_ne (h : setHostOk inetPton6 host = true) {b : UInt8}
    (hb : b ∈ host) : b ≠ AT ∧ authorityChar b = true := by
  unfold setHostOk at h
  split at h
  · exact bracketAddr_ne hpton h hb
  · exact (regname_ne h hb).2

end

/-- A host that its setter accepts is one that the parser accepts. -/
theorem hostOk_of_setHostOk (h : setHostOk inetPton6 host = true) :
    hostOk inetPton6 host = true := by
  unfold setHostOk at h
  split at h
  · next hbracket =>
    obtain ⟨b, inner, rfl, -⟩ := bracketAddr_parts h
    rw [hostOk, if_pos ⟨hbracket, by simp, List.getLast?_concat⟩]
    exact h
  · next hbracket =>
    rw [hostOk, if_neg fun hand => hbracket hand.1]
    exact h

/-! ### The components together -/

/-- The components stand together: without a host there is no userinfo, no port and no path that
begins with `//`, and without a scheme either, no path with a colon in its first segment; and the
port is one that the parser accepts. -/
def JoinSafe (u : EvhttpUri) : Prop :=
  (u.host = none → u.userinfo = none ∧ u.port = -1 ∧ ¬ [SLASH, SLASH] <+: u.path.getD [] ∧
    (u.scheme = none → pathMatchesNoscheme (u.path.getD []) = true)) ∧ u.port ≤ 65535

/-- `NULL` and the empty string are the same path: the parser never leaves it `NULL`. -/
def normalised (u : EvhttpUri) : EvhttpUri := { u with path := some (u.path.getD []) }

theorem rooted_of_join {limit : Nat} {t : Bytes} (h : evhttpUriJoin u limit = some t) :
    t = uriText (normalised u) ∧ (u.host.isSome → Rooted (u.path.getD [])) := by
  unfold evhttpUriJoin at h
  split_ifs at h with hlimit hroot hlong
  refine ⟨(Option.some.inj h).symm, fun hsome => ?_⟩
  by_contra hnot
  rw [Rooted, not_or] at hnot
  exact hroot ⟨hsome, hnot.1, hnot.2⟩

/-- Components that have passed their own checks and stand together make a URI. -/
theorem SetOk.uriOk (h : SetOk inetPton6 u)
    (hpton : ∀ x, inetPton6 x = true → ∀ b ∈ x, b ≠ AT ∧ authorityChar b = true)
    (hsafe : JoinSafe u)
    (hrooted : u.host.isSome → Rooted (u.path.getD [])) :
    UriOk inetPton6 (normalised u) (u.path.getD []) := by
  have hflags : (normalised u).flags = 0 := h.flags
  have hpath : endOfPath (u.path.getD []) .path 0 = [] := by
    cases hp : u.path with
    | none => rfl
    | some x => exact h.path x hp
  refine ⟨h.scheme, rfl, ?_, ?_, ?_, hsafe.1, fun host hhost => ⟨?_, hrooted ?_⟩⟩
  · rw [hflags]
    exact hpath
  · rw [hflags]
    exact h.query
  · rw [hflags]
    exact h.fragment
  · have hne := fun b (hb : b ∈ host) => setHost_ne hpton (h.host host hhost) hb
    exact ⟨h.userinfo, hostOk_of_setHostOk (h.host host hhost), fun b hb => (hne b hb).2,
      fun _ hat => (hne AT hat).1 rfl, h.port, hsafe.2⟩
  · rw [Option.isSome_iff_exists]
    exact ⟨host, hhost⟩

theorem UriOk.joinSafe {path : Bytes}
    (h : UriOk inetPton6 (normalised u) path) : JoinSafe u := by
  obtain rfl : u.path.getD [] = path := Option.some.inj h.path_eq
  refine ⟨h.relative, ?_⟩
  cases hhost : u.host with
  | none =>
    have hport : u.port = -1 := (h.relative hhost).2.1
    omega
  | some host => exact (h.authority host hhost).1.range.2

/-- **When a URI that was built with the setters is read back.** For every sequence of calls that
succeed, the parser finds the same components in the text that `evhttp_uri_join` has written exactly
when they stand together. -/
theorem sets_join_parse_iff (inetPton6 : Bytes → Bool)
    (hpton : ∀ x, inetPton6 x = true → ∀ b ∈ x, b ≠ AT ∧ authorityChar b = true)
    {calls : List UriSetter} {u : EvhttpUri} (hsets : evhttpUriSets inetPton6 calls = some u)
    {limit : Nat} {t : Bytes} (hjoin : evhttpUriJoin u limit = some t) :
    evhttpUriParse inetPton6 t = some (normalised u) ↔ JoinSafe u := by
  obtain ⟨rfl, hrooted⟩ := rooted_of_join hjoin
  have hok := setOk_of_sets hsets
  constructor
  · intro hparse
    obtain ⟨-, path, huri⟩ := uriOk_of_parse hparse
    exact huri.joinSafe
  intro hsafe
  have hparse := parse_uriText (hok.uriOk hpton hsafe hrooted)
  have hflags : (normalised u).flags = 0 := hok.flags
  rw [hflags] at hparse
  exact hparse

/-- The calls that build `//[::1]:80/p`. -/
def safeCalls : List UriSetter :=
  [.host (some (ascii "[::1]")), .port 80, .path (some (ascii "/p"))]

def safeUri : EvhttpUri :=
  { host := some (ascii "[::1]"), port := 80, path := some (ascii "/p") }

/-- A reader of IPv6 addresses that knows one of them. -/
def loopback6 (s : Bytes) : Bool := s = ascii "::1"

/-- The address in brackets is read back. -/
theorem sets_join_parse_safe : evhttpUriSets loopback6 safeCalls = some safeUri ∧
    (evhttpUriParse loopback6 (uriText safeUri) = some (normalised safeUri) ↔
      JoinSafe safeUri) := by
  have hsets : evhttpUriSets loopback6 safeCalls = some safeUri := by decide +kernel
  have hjoin : evhttpUriJoin safeUri 100 = some (uriText safeUri) := by
    simp [evhttpUriJoin, uriText, safeUri, authorityText, printDec, partText, ascii, SLASH]
  refine ⟨hsets, sets_join_parse_iff loopback6 (fun x hx => ?_) hsets hjoin⟩
  obtain rfl : x = ascii "::1" := of_decide_eq_true hx
  decide +kernel

/-- A path that its setter accepts is read back as a host. -/
theorem path_read_as_host :
    evhttpUriSets (fun _ => false) [.path (some (ascii "//a"))] = some { path := ascii "//a" } ∧
      evhttpUriJoin { path := ascii "//a" } 100 = some (ascii "//a") ∧
      evhttpUriParse (fun _ => false) (ascii "//a") =
        some { host := some (ascii "a"), path := some [] } := by
  decide +kernel

end Libevent
