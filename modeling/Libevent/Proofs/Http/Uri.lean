import Libevent.Http.Uri
import Libevent.Lib.Span

/-!
# `Libevent.Proofs.Http.Uri`: parsing and joining a URI

`parse_join_parse`: what has been parsed and joined is parsed to the same URI again.
-/

namespace Libevent

open Lib

/-! ### Scanners -/

variable {b : UInt8} {t l : Bytes} {a cp scheme rest : Bytes} {delim : UInt8}
  {q query fragment : Option Bytes} {n : Nat}

section
variable {ok : UInt8 → Bool}

/-- A scan stops in front of the text, whatever stands before it. -/
def RunStops (ok : UInt8 → Bool) (t : Bytes) : Prop :=
  ∀ b ∈ t.head?, ok b = false ∧ b ≠ PERCENT

theorem endOfRun_cons_ok (h : ok b = true) (cp : Bytes) :
    endOfRun ok (b :: cp) = endOfRun ok cp := by
  rw [endOfRun.eq_def]
  simp only [if_pos h]

theorem endOfRun_percent {x y : UInt8} (hb : ¬ ok b = true)
    (h : (b = PERCENT && isXdigit x && isXdigit y) = true) (cp : Bytes) :
    endOfRun ok (b :: x :: y :: cp) = endOfRun ok cp := by
  rw [endOfRun, if_neg hb, if_pos h]

theorem endOfRun_of_stops (h : RunStops ok t) : endOfRun ok t = t := by
  cases t with
  | nil => rw [endOfRun]
  | cons b t =>
    obtain ⟨hb, hpercent⟩ := h b rfl
    rw [endOfRun.eq_def]
    simp only [hb, Bool.false_eq_true, if_false]
    split <;> simp [hpercent]

/-- Behind a run that the scan passes over completely, it goes on with what follows. -/
theorem endOfRun_append (t : Bytes) (ha : endOfRun ok a = []) :
    endOfRun ok (a ++ t) = endOfRun ok t := by
  fun_induction endOfRun ok a with
  | case1 => rfl
  | case2 b cp hb ih => rw [List.cons_append, endOfRun_cons_ok hb, ih ha]
  | case3 b hb x y rest hpercent ih =>
    exact (endOfRun_percent hb hpercent (rest ++ t)).trans (ih ha)
  | case4 => simp at ha
  | case5 => simp at ha

/-- The scan cuts its text into a run that it passes over, and the rest. -/
theorem exists_run (ok : UInt8 → Bool) (l : Bytes) :
    ∃ a, l = a ++ endOfRun ok l ∧ endOfRun ok a = [] := by
  fun_induction endOfRun ok l with
  | case1 => exact ⟨[], rfl, by rw [endOfRun]⟩
  | case2 b cp hb ih =>
    obtain ⟨a, hcut, ha⟩ := ih
    refine ⟨b :: a, by rw [List.cons_append, ← hcut], ?_⟩
    rw [endOfRun_cons_ok hb, ha]
  | case3 b hb x y rest hpercent ih =>
    obtain ⟨a, hcut, ha⟩ := ih
    refine ⟨b :: x :: y :: a, by simp [← hcut], ?_⟩
    rw [endOfRun_percent hb hpercent, ha]
  | case4 b hb x y rest hpercent => exact ⟨[], rfl, by rw [endOfRun]⟩
  | case5 b cp hb hshort => exact ⟨[], rfl, by rw [endOfRun]⟩

/-- The bytes of a run. -/
theorem mem_of_endOfRun (h : endOfRun ok l = []) {c : UInt8} (hc : c ∈ l) :
    ok c = true ∨ c = PERCENT ∨ isXdigit c = true := by
  fun_induction endOfRun ok l with
  | case1 => cases hc
  | case2 b cp hb ih =>
    rcases List.mem_cons.mp hc with rfl | hc
    · exact .inl hb
    · exact ih h hc
  | case3 b hb x y rest hpercent ih =>
    simp only [Bool.and_eq_true, decide_eq_true_eq] at hpercent
    simp only [List.mem_cons] at hc
    rcases hc with rfl | rfl | rfl | hc
    · exact .inr (.inl hpercent.1.1)
    · exact .inr (.inr hpercent.1.2)
    · exact .inr (.inr hpercent.2)
    · exact ih h hc
  | case4 => simp at h
  | case5 => simp at h

end

/-! ### Path, query and fragment -/

/-- The text is empty or goes on with a byte that ends the part. -/
def PartStops (part : UriPart) (t : Bytes) : Prop := ∀ b ∈ t.head?, partDelim part b = true

theorem partStops_nil (part : UriPart) : PartStops part [] := by simp [PartStops]

variable {part : UriPart}

theorem partChar_of_partDelim (h : partDelim part b = true) :
    partChar part b = false ∧ b ≠ PERCENT := by
  cases part with
  | path =>
    simp only [partDelim, Bool.or_eq_true, decide_eq_true_eq] at h
    rcases h with rfl | rfl <;> decide
  | query =>
    simp only [partDelim, decide_eq_true_eq] at h
    subst h
    decide
  | fragment => cases h

variable {flags : Nat}

/-- A part that is well formed ends where the byte behind it ends such a part. -/
theorem endOfPath_append (ha : endOfPath a part flags = []) (ht : PartStops part t) :
    endOfPath (a ++ t) part flags = t := by
  unfold endOfPath at ha ⊢
  split at ha
  · next hflags =>
    rw [if_pos hflags]
    have hall : ∀ b ∈ a, (!partDelim part b) = true := List.dropWhile_eq_nil_iff.mp ha
    exact dropWhile_append_stops hall fun b hb => by simp [ht b hb]
  · next hflags =>
    rw [if_neg hflags, endOfRun_append t ha]
    exact endOfRun_of_stops fun b hb => partChar_of_partDelim (ht b hb)

/-- `end_of_path` cuts its text into a part that is well formed, and the rest. -/
theorem exists_part (l : Bytes) (part : UriPart) (flags : Nat) :
    ∃ a, l = a ++ endOfPath l part flags ∧ endOfPath a part flags = [] := by
  unfold endOfPath
  split
  · refine ⟨l.takeWhile fun b => !partDelim part b, List.takeWhile_append_dropWhile.symm, ?_⟩
    exact List.dropWhile_eq_nil_iff.mpr fun b hb =>
      List.mem_takeWhile_imp (p := fun b => !partDelim part b) hb
  · exact exists_run (partChar part) l

theorem upTo_append (a t : Bytes) : upTo (a ++ t) t = a := by simp [upTo]

/-- What `end_of_path` passes over is well formed. -/
theorem endOfPath_upTo (l : Bytes) (part : UriPart) (flags : Nat) :
    l = upTo l (endOfPath l part flags) ++ endOfPath l part flags ∧
      endOfPath (upTo l (endOfPath l part flags)) part flags = [] := by
  obtain ⟨a, hcut, ha⟩ := exists_part l part flags
  have hupTo : upTo l (endOfPath l part flags) = a := by
    generalize endOfPath l part flags = r at hcut ⊢
    rw [hcut, upTo_append]
  rw [hupTo]
  exact ⟨hcut, ha⟩

/-- An optional part is read back behind its delimiter. -/
theorem takePart_append (hq : ∀ x ∈ q, endOfPath x part flags = []) (ht : PartStops part t)
    (hdelim : t.head? ≠ some delim) :
    takePart delim part flags (partText delim q ++ t) = (q, t) := by
  cases q with
  | none => rw [partText, List.nil_append, takePart, if_neg hdelim]
  | some x =>
    rw [partText, List.cons_append, takePart, List.head?_cons, if_pos rfl]
    simp only [List.tail_cons, endOfPath_append (hq x rfl) ht, upTo_append]

/-- What `takePart` finds is well formed and stands in front of the rest. -/
theorem takePart_inv (h : takePart delim part flags l = (q, t)) :
    l = partText delim q ++ t ∧ ∀ x ∈ q, endOfPath x part flags = [] := by
  unfold takePart at h
  split at h
  · next hhead =>
    cases h
    obtain ⟨x, rfl⟩ : ∃ x, l = delim :: x := by
      cases l with
      | nil => simp at hhead
      | cons b x => exact ⟨x, by simpa using hhead⟩
    obtain ⟨hcut, hok⟩ := endOfPath_upTo x part flags
    refine ⟨?_, fun y hy => ?_⟩
    · simp only [partText, List.tail_cons, List.cons_append, ← hcut]
    · cases hy
      exact hok
  · cases h
    exact ⟨rfl, nofun⟩

/-! ### Port -/

theorem isDigit_ofNat {d : Nat} (h : d < 10) : isDigit (UInt8.ofNat (48 + d)) = true := by
  interval_cases d <;> decide

theorem toNat_ofNat_digit {d : Nat} (h : d < 10) : (UInt8.ofNat (48 + d)).toNat - 48 = d := by
  interval_cases d <;> decide

theorem le_foldl_digits (l : List Nat) (acc : Nat) : acc ≤ l.foldl (fun a d => a * 10 + d) acc := by
  induction l generalizing acc with
  | nil => exact Nat.le_refl acc
  | cons d l ih => exact Nat.le_trans (by omega) (ih (acc * 10 + d))

/-- `parse_port` reads the digits of a number in range. -/
theorem parsePortLoop_digits {l : List Nat} (hl : ∀ d ∈ l, d < 10) {acc : Nat}
    (h : l.foldl (fun a d => a * 10 + d) acc ≤ 65535) :
    parsePortLoop acc (l.map fun d => UInt8.ofNat (48 + d)) =
      (l.foldl (fun a d => a * 10 + d) acc : Nat) := by
  induction l generalizing acc with
  | nil => rfl
  | cons d l ih =>
    have hd : d < 10 := hl d List.mem_cons_self
    have hle := le_foldl_digits l (acc * 10 + d)
    rw [List.foldl_cons] at h
    rw [List.map_cons, parsePortLoop]
    simp only [isDigit_ofNat hd, toNat_ofNat_digit hd, Bool.not_true, Bool.false_eq_true, if_false]
    rw [if_neg (by omega), ih (fun e he => hl e (List.mem_cons_of_mem d he)) h]
    rfl

theorem foldl_digits_reverse (n : Nat) :
    (Nat.digits 10 n).reverse.foldl (fun a d => a * 10 + d) 0 = n := by
  rw [List.foldl_reverse]
  have hfun : (fun (d a : Nat) => a * 10 + d) = fun d a => d + 10 * a := by
    funext d a
    omega
  rw [hfun]
  simpa [Nat.ofDigits_eq_foldr] using Nat.ofDigits_digits 10 n

theorem isDigit_of_mem_printDec : ∀ b ∈ printDec n, isDigit b = true := by
  intro b hb
  unfold printDec at hb
  split at hb
  · obtain rfl := List.mem_singleton.mp hb
    rfl
  · obtain ⟨d, hd, rfl⟩ := List.mem_map.mp hb
    exact isDigit_ofNat (Nat.digits_lt_base (by decide) (List.mem_reverse.mp hd))

theorem printDec_ne_nil (n : Nat) : printDec n ≠ [] := by
  unfold printDec
  split
  · exact List.cons_ne_nil 48 []
  · next hn => simpa using Nat.digits_ne_nil_iff_ne_zero.mpr hn

theorem parsePort_printDec (h : n ≤ 65535) : parsePort (printDec n) = n := by
  unfold printDec parsePort
  split
  · next hn =>
    subst hn
    rfl
  · have hdigits : ∀ d ∈ (Nat.digits 10 n).reverse, d < 10 := fun d hd =>
      Nat.digits_lt_base (by decide) (List.mem_reverse.mp hd)
    rw [parsePortLoop_digits hdigits (by rw [foldl_digits_reverse]; exact h), foldl_digits_reverse]

/-- A port that `parse_port` accepts is in range. -/
theorem parsePortLoop_le (s : Bytes) {acc : Nat} (h : acc ≤ 65535) :
    -1 ≤ parsePortLoop acc s ∧ parsePortLoop acc s ≤ 65535 := by
  induction s generalizing acc with
  | nil =>
    rw [parsePortLoop]
    omega
  | cons b s ih =>
    rw [parsePortLoop]
    split
    · omega
    dsimp only
    split
    · omega
    · exact ih (by omega)

/-! ### Classes of bytes -/

/-- A byte that passes a test is none of the bytes that fail it. -/
theorem ne_of_class {p : UInt8 → Bool} (h : p b = true)
    (hp : p QUESTION = false ∧ p HASH = false ∧ p SLASH = false ∧ p AT = false) :
    b ≠ AT ∧ authorityChar b = true := by
  have hne : ∀ {c : UInt8}, p c = false → b ≠ c := by
    rintro c hc rfl
    cases h.symm.trans hc
  refine ⟨hne hp.2.2.2, ?_⟩
  simp [authorityChar, hne hp.1, hne hp.2.1, hne hp.2.2.1]

theorem xdigit_ne (h : isXdigit b = true) : b ≠ AT ∧ authorityChar b = true :=
  ne_of_class h (by decide)

/-- The bytes of a registered name. -/
def regnameChar (b : UInt8) : Bool := charIsUnreserved b || isSubdelim b

variable {s : Bytes}

/-- A registered name holds no byte that means something in an authority. -/
theorem regname_ne (h : regnameOk s = true) (hb : b ∈ s) :
    b ≠ COLON ∧ b ≠ AT ∧ authorityChar b = true := by
  simp only [regnameOk, decide_eq_true_eq] at h
  rcases mem_of_endOfRun h hb with hok | rfl | hx
  · refine ⟨?_, ne_of_class (p := regnameChar) hok (by decide)⟩
    rintro rfl
    exact absurd hok (by decide)
  · decide
  · refine ⟨?_, xdigit_ne hx⟩
    rintro rfl
    exact absurd hx (by decide)

/-- A userinfo ends at the first `@`. -/
theorem userinfo_ne (h : userinfoOk s = true) (hb : b ∈ s) : b ≠ AT ∧ authorityChar b = true := by
  simp only [userinfoOk, decide_eq_true_eq] at h
  rcases mem_of_endOfRun h hb with hok | rfl | hx
  · exact ne_of_class hok (by decide)
  · decide
  · exact xdigit_ne hx

/-! ### Authority -/

/-- The components of an authority, each well formed. A host is delimited by the end of the
authority, and by the first `@` only when a userinfo stands before it. -/
structure AuthorityOk (inetPton6 : Bytes → Bool) (userinfo : Option Bytes)
    (host : Bytes) (port : Int) : Prop where
  user : ∀ x ∈ userinfo, userinfoOk x = true
  name : hostOk inetPton6 host = true
  delim : ∀ b ∈ host, authorityChar b = true
  noAt : userinfo = none → AT ∉ host
  range : -1 ≤ port ∧ port ≤ 65535

variable {inetPton6 : Bytes → Bool} {uri v u : EvhttpUri} {host path readp : Bytes}
  {port : Int} {userinfo : Option Bytes} {gotAuthority : Bool}

theorem takeUserinfo_some (uri : EvhttpUri) {x : Bytes} (h : userinfoOk x = true)
    (cp : Bytes) :
    takeUserinfo uri (x ++ AT :: cp) = some ({ uri with userinfo := some x }, cp) := by
  have hx : ∀ b ∈ x, decide (b ≠ AT) = true := fun b hb => by simp [(userinfo_ne h hb).1]
  have hstops : Stops (fun b => decide (b ≠ AT)) (AT :: cp) := stops_cons.mpr (by simp)
  rw [takeUserinfo, dropWhile_append_stops hx hstops, takeWhile_append_stops hx hstops]
  simp only [h, if_true]

theorem takeUserinfo_none (uri : EvhttpUri) (h : AT ∉ s) : takeUserinfo uri s = some (uri, s) := by
  have hdrop : s.dropWhile (· ≠ AT) = [] :=
    List.dropWhile_eq_nil_iff.mpr fun b hb => by
      simp only [decide_eq_true_eq]
      rintro rfl
      exact h hb
  rw [takeUserinfo, hdrop]

theorem takeUserinfo_inv (h : takeUserinfo uri s = some (v, cp)) : (AT ∉ s ∧ v = uri ∧ cp = s) ∨
      ∃ x, s = x ++ AT :: cp ∧ userinfoOk x = true ∧ v = { uri with userinfo := some x } := by
  unfold takeUserinfo at h
  split at h
  · next hdrop =>
    cases h
    refine .inl ⟨fun hat => ?_, rfl, rfl⟩
    simpa using List.dropWhile_eq_nil_iff.mp hdrop AT hat
  next b rest hdrop =>
  dsimp only at h
  split at h
  · next hok =>
    cases h
    exact .inr ⟨s.takeWhile (· ≠ AT), cut_of_dropWhile_ne hdrop, hok, rfl⟩
  · cases h

/-- The text does not end with a colon and digits. -/
def NoPort (s : Bytes) : Prop := (s.rdropWhile isDigit).getLast? ≠ some COLON

theorem takePort_none (uri : EvhttpUri) (h : NoPort s) : takePort uri s = some (uri, s) := by
  exact if_neg h

theorem rdropWhile_digits {digits : Bytes} (h : ∀ b ∈ digits, isDigit b = true)
    (s : Bytes) :
    (s ++ COLON :: digits).rdropWhile isDigit = s ++ [COLON] ∧
      (s ++ COLON :: digits).rtakeWhile isDigit = digits := by
  have hrev : (s ++ COLON :: digits).reverse = digits.reverse ++ COLON :: s.reverse := by simp
  have hall : ∀ b ∈ digits.reverse, isDigit b = true := fun b hb => h b (List.mem_reverse.mp hb)
  have hstops : Stops isDigit (COLON :: s.reverse) := stops_cons.mpr rfl
  constructor
  · rw [List.rdropWhile, hrev, dropWhile_append_stops hall hstops]
    simp
  · rw [List.rtakeWhile, hrev, takeWhile_append_stops hall hstops, List.reverse_reverse]

theorem takePort_some (uri : EvhttpUri) (h : n ≤ 65535) (s : Bytes) :
    takePort uri (s ++ COLON :: printDec n) = some ({ uri with port := n }, s) := by
  obtain ⟨hdrop, htake⟩ := rdropWhile_digits (@isDigit_of_mem_printDec n) s
  rw [takePort, hdrop, htake, parsePort_printDec h]
  have hport : ¬ (n : Int) < 0 := by omega
  simp [printDec_ne_nil]

theorem takePort_inv (h : takePort uri cp = some (v, host)) (hport : uri.port = -1) :
    host <+: cp ∧ v = { uri with port := v.port } ∧ -1 ≤ v.port ∧ v.port ≤ 65535 := by
  have hfront : cp.rdropWhile isDigit <+: cp := List.rdropWhile_prefix isDigit cp
  have hlast : (cp.rdropWhile isDigit).dropLast <+: cp := (List.dropLast_prefix _).trans hfront
  have hrange :
      -1 ≤ parsePort (cp.rtakeWhile isDigit) ∧ parsePort (cp.rtakeWhile isDigit) ≤ 65535 :=
    parsePortLoop_le (cp.rtakeWhile isDigit) (by decide)
  unfold takePort at h
  dsimp only at h
  split_ifs at h with hcolon hnil hneg
  · cases h
    exact ⟨hlast, rfl, by simp, by simp⟩
  · cases h
    exact ⟨hlast, rfl, hrange⟩
  · cases h
    rw [hport]
    exact ⟨List.prefix_rfl, by rw [← hport], by decide, by decide⟩

/-- A host that is well formed is not taken for a host with a port. -/
theorem noPort_of_hostOk (h : hostOk inetPton6 host = true) : NoPort host := by
  unfold hostOk at h
  split at h
  · next hbracket =>
    -- the last byte is a bracket, so there are no digits to skip
    have hne : host ≠ [] := by
      rintro rfl
      simp at hbracket
    have hlast : host.getLast hne = RBRACKET :=
      Option.some.inj ((List.getLast?_eq_some_getLast hne).symm.trans hbracket.2.2)
    have hdrop : host.rdropWhile isDigit = host := by
      rw [List.rdropWhile_eq_self_iff]
      intro _
      rw [hlast]
      decide
    rw [NoPort, hdrop, hbracket.2.2]
    decide
  · intro hcolon
    have hmem : COLON ∈ host :=
      (List.rdropWhile_prefix isDigit host).subset (List.mem_of_getLast? hcolon)
    exact (regname_ne h hmem).1 rfl

/-- What `evhttp_uri_join` writes behind the userinfo. -/
def hostText (host : Bytes) (port : Int) : Bytes :=
  host ++ if 0 ≤ port then COLON :: printDec port.toNat else []

theorem authorityText_some (x host : Bytes) (port : Int) :
    authorityText (some x) host port = x ++ AT :: hostText host port := by
  simp [authorityText, hostText]

theorem authorityText_none (host : Bytes) (port : Int) :
    authorityText none host port = hostText host port := by
  simp [authorityText, hostText]

theorem mem_hostText (h : b ∈ hostText host port) : b ∈ host ∨ b = COLON ∨ isDigit b = true := by
  rcases List.mem_append.mp h with hb | hb
  · exact .inl hb
  split at hb
  · rcases List.mem_cons.mp hb with rfl | hb
    · exact .inr (.inl rfl)
    · exact .inr (.inr (isDigit_of_mem_printDec b hb))
  · cases hb

theorem takeUserinfo_authorityText (uri : EvhttpUri) (h : ∀ x ∈ userinfo, userinfoOk x = true)
    (hat : userinfo = none → AT ∉ host) (huser : uri.userinfo = none) :
    takeUserinfo uri (authorityText userinfo host port) =
      some ({ uri with userinfo := userinfo }, hostText host port) := by
  cases userinfo with
  | some x => rw [authorityText_some, takeUserinfo_some uri (h x rfl)]
  | none =>
    have hnotin : AT ∉ hostText host port := by
      intro hmem
      rcases mem_hostText hmem with hhost | hcolon | hdigit
      · exact hat rfl hhost
      · exact absurd hcolon (by decide)
      · exact absurd hdigit (by decide)
    rw [authorityText_none, takeUserinfo_none uri hnotin, ← huser]

theorem takePort_hostText (uri : EvhttpUri) (h : hostOk inetPton6 host = true)
    (hrange : -1 ≤ port ∧ port ≤ 65535) (hport : uri.port = -1) :
    takePort uri (hostText host port) = some ({ uri with port := port }, host) := by
  unfold hostText
  split
  · have hle : port.toNat ≤ 65535 := by omega
    rw [takePort_some uri hle host, Int.toNat_of_nonneg (by assumption)]
  · obtain rfl : port = -1 := by omega
    rw [List.append_nil, takePort_none uri (noPort_of_hostOk h), ← hport]

/-- An authority that is put together from its components is taken apart into them. -/
theorem parseAuthority_text (h : AuthorityOk inetPton6 userinfo host port)
    (huser : uri.userinfo = none) (hport : uri.port = -1) :
    parseAuthority inetPton6 uri (authorityText userinfo host port) =
      some { uri with userinfo := userinfo, host := some host, port := port } := by
  obtain ⟨flags, scheme, userinfo', host', port', path, query, fragment⟩ := uri
  obtain rfl : userinfo' = none := huser
  obtain rfl : port' = -1 := hport
  by_cases hnil : authorityText userinfo host port = []
  · cases userinfo with
    | some x => simp [authorityText] at hnil
    | none =>
      have hneg : ¬ 0 ≤ port := by
        intro hpos
        simp [authorityText, hpos] at hnil
      obtain rfl : host = [] := by simpa [authorityText, hneg] using hnil
      obtain rfl : port = -1 := by
        have := h.range.1
        omega
      rfl
  · rw [parseAuthority, if_neg hnil, takeUserinfo_authorityText _ h.user h.noAt rfl]
    simp only [Option.bind_eq_bind, Option.bind_some]
    rw [takePort_hostText _ h.name h.range rfl]
    exact if_pos h.name

/-- What `parse_authority` accepts has well-formed components. -/
theorem parseAuthority_inv (h : parseAuthority inetPton6 uri s = some v)
    (huser : uri.userinfo = none) (hport : uri.port = -1) (hs : ∀ b ∈ s, authorityChar b = true) :
    ∃ userinfo host port, v = { uri with userinfo := userinfo, host := some host, port := port } ∧
      AuthorityOk inetPton6 userinfo host port := by
  unfold parseAuthority at h
  split at h
  · cases h
    refine ⟨none, [], -1, by rw [← huser, ← hport], ?_⟩
    exact ⟨nofun, rfl, nofun, nofun, by decide⟩
  obtain ⟨⟨w, cp⟩, huserinfo, h⟩ := Option.bind_eq_some_iff.mp h
  obtain ⟨⟨w', host⟩, hporteq, h⟩ := Option.bind_eq_some_iff.mp h
  dsimp only at hporteq h
  split at h
  · next hhost =>
    cases h
    rcases takeUserinfo_inv huserinfo with ⟨hat, rfl, rfl⟩ | ⟨x, rfl, hx, rfl⟩
    · obtain ⟨⟨rest, rfl⟩, hw, hrange⟩ := takePort_inv hporteq hport
      refine ⟨none, host, w'.port, by rw [hw, ← huser], ?_⟩
      exact ⟨nofun, hhost, fun b hb => hs b (List.mem_append_left rest hb),
        fun _ hmem => hat (List.mem_append_left rest hmem), hrange⟩
    obtain ⟨⟨rest, rfl⟩, hw, hrange⟩ := takePort_inv hporteq hport
    refine ⟨some x, host, w'.port, by rw [hw], ?_⟩
    refine ⟨fun y hy => ?_, hhost, fun b hb => hs b ?_, nofun, hrange⟩
    · cases hy
      exact hx
    · simp [hb]
  · cases h

/-! ### Scheme -/

/-- The parser finds no scheme in the text. -/
def Schemeless (l : Bytes) : Prop :=
  COLON ∈ l → schemeOk (l.takeWhile (· ≠ COLON)) = false

/-- The bytes of a scheme. -/
def schemeChar (b : UInt8) : Bool := isAlpha b || isDigit b || b = 43 || b = 45 || b = DOT

theorem schemeChar_of_mem (h : schemeOk s = true) (hb : b ∈ s) : schemeChar b = true := by
  cases s with
  | nil => cases hb
  | cons c s =>
    simp only [schemeOk, Bool.and_eq_true] at h
    rcases List.mem_cons.mp hb with rfl | hb
    · simp [schemeChar, h.1]
    · exact List.all_eq_true.mp h.2 b hb

theorem takeScheme_some (uri : EvhttpUri) (h : schemeOk scheme = true) (rest : Bytes) :
    takeScheme uri (scheme ++ COLON :: rest) = ({ uri with scheme := some scheme }, rest) := by
  have hall : ∀ b ∈ scheme, decide (b ≠ COLON) = true := by
    intro b hb
    simp only [decide_eq_true_eq]
    rintro rfl
    exact absurd (schemeChar_of_mem h hb) (by decide)
  have hstops : Stops (fun b => decide (b ≠ COLON)) (COLON :: rest) := stops_cons.mpr (by simp)
  rw [takeScheme, dropWhile_append_stops hall hstops, takeWhile_append_stops hall hstops]
  simp only [h, if_true]

theorem takeScheme_none (uri : EvhttpUri) (h : Schemeless l) : takeScheme uri l = (uri, l) := by
  rw [takeScheme]
  split
  · rfl
  next b rest hdrop =>
  have hmem : COLON ∈ l := by
    rw [cut_of_dropWhile_ne hdrop]
    exact List.mem_append_right _ List.mem_cons_self
  simp only [h hmem, Bool.false_eq_true, if_false]

theorem takeScheme_inv (h : takeScheme uri l = (v, rest)) :
    (v = uri ∧ rest = l ∧ Schemeless l) ∨ ∃ scheme, schemeOk scheme = true ∧
      l = scheme ++ COLON :: rest ∧ v = { uri with scheme := some scheme } := by
  unfold takeScheme at h
  split at h
  · next hdrop =>
    cases h
    refine .inl ⟨rfl, rfl, fun hcolon => ?_⟩
    exact absurd (List.dropWhile_eq_nil_iff.mp hdrop COLON hcolon) (by simp)
  next b r hdrop =>
  dsimp only at h
  split at h
  · next hok =>
    cases h
    exact .inr ⟨_, hok, cut_of_dropWhile_ne hdrop, rfl⟩
  · next hok =>
    cases h
    exact .inl ⟨rfl, rfl, fun _ => by simpa using hok⟩

/-- A byte that no scheme has, in front of the first colon, keeps the parser from finding one. -/
theorem schemeless_of_cut {c : Bytes} {d : UInt8} (hc : COLON ∉ c) (hd : d ≠ COLON)
    (hscheme : schemeChar d = false) : Schemeless (c ++ d :: t) := by
  intro _
  have hall : ∀ b ∈ c ++ [d], decide (b ≠ COLON) = true := by
    intro b hb
    simp only [decide_eq_true_eq]
    rintro rfl
    rcases List.mem_append.mp hb with hb | hb
    · exact hc hb
    · exact hd (List.mem_singleton.mp hb).symm
  have hmem : d ∈ (c ++ d :: t).takeWhile (· ≠ COLON) := by
    have hsplit : c ++ d :: t = (c ++ [d]) ++ t := by simp
    rw [hsplit, List.takeWhile_append_of_pos hall]
    simp
  by_contra hok
  have := schemeChar_of_mem (by simpa using hok) hmem
  cases hscheme.symm.trans this

/-- A path without a colon in its first segment has no colon, or a slash in front of it. -/
theorem cut_of_pathMatchesNoscheme {p : Bytes} (h : pathMatchesNoscheme p = true) :
    COLON ∉ p ∨ ∃ c t, p = c ++ SLASH :: t ∧ COLON ∉ c := by
  induction p with
  | nil => exact .inl List.not_mem_nil
  | cons b p ih =>
    rw [pathMatchesNoscheme] at h
    split_ifs at h with hcolon hslash
    · subst hslash
      exact .inr ⟨[], p, rfl, List.not_mem_nil⟩
    have hne : ∀ {c : Bytes}, COLON ∉ c → COLON ∉ b :: c := fun hc hmem =>
      (List.mem_cons.mp hmem).elim (fun heq => hcolon heq.symm) hc
    rcases ih h with hnone | ⟨c, t, rfl, hc⟩
    · exact .inl (hne hnone)
    · exact .inr ⟨b :: c, t, rfl, hne hc⟩

/-! ### The whole text -/

/-- What follows the authority: the path, the query and the fragment. -/
def tailText (path : Bytes) (query fragment : Option Bytes) : Bytes :=
  path ++ (partText QUESTION query ++ partText HASH fragment)

theorem partStops_fragment (fragment : Option Bytes) :
    PartStops .query (partText HASH fragment) := by
  intro b hb
  cases fragment with
  | none => cases hb
  | some x =>
    cases hb
    rfl

theorem partStops_query (query fragment : Option Bytes) :
    PartStops .path (partText QUESTION query ++ partText HASH fragment) := by
  intro b hb
  cases query with
  | some x =>
    cases hb
    rfl
  | none =>
    have hdelim := partStops_fragment fragment b hb
    simp only [partDelim] at hdelim ⊢
    simp [hdelim]

/-- Without a colon in the first segment of the path, there is no scheme. -/
theorem schemeless_tailText (h : pathMatchesNoscheme path = true)
    (query fragment : Option Bytes) : Schemeless (tailText path query fragment) := by
  unfold tailText
  rcases cut_of_pathMatchesNoscheme h with hnone | ⟨c, t, rfl, hc⟩
  · cases query with
    | some q => exact schemeless_of_cut hnone (by decide) rfl
    | none =>
      cases fragment with
      | some f => exact schemeless_of_cut hnone (by decide) rfl
      | none =>
        intro hcolon
        exact absurd (by simpa [partText] using hcolon) hnone
  · rw [List.append_assoc]
    exact schemeless_of_cut hc (by decide) rfl

/-- What the parser does behind the authority. -/
theorem parse_of_parts {uri1 uri2 : EvhttpUri}
    (hscheme : takeScheme { flags := flags } s = (uri1, readp)) (hauthority : takeAuthority
      inetPton6 uri1 readp = some (uri2, tailText path query fragment, gotAuthority))
    (hpath : endOfPath path .path flags = []) (hquery : ∀ x ∈ query, endOfPath x .query flags = [])
    (hfragment : ∀ x ∈ fragment, endOfPath x .fragment flags = []) :
    evhttpUriParseWithFlags inetPton6 s flags =
      if pathOk uri2 gotAuthority path then
        some { uri2 with path := some path, query := query, fragment := fragment }
      else none := by
  have hend : endOfPath (tailText path query fragment) .path flags =
      partText QUESTION query ++ partText HASH fragment :=
    endOfPath_append hpath (partStops_query query fragment)
  have hhash : (partText HASH fragment).head? ≠ some QUESTION := by
    cases fragment with
    | none => exact nofun
    | some x => exact fun heq => absurd (Option.some.inj heq) (by decide)
  have htakeQuery := takePart_append hquery (partStops_fragment fragment) hhash
  have htakeFragment : takePart HASH .fragment flags (partText HASH fragment) = (fragment, []) := by
    rw [← List.append_nil (partText HASH fragment)]
    exact takePart_append hfragment (partStops_nil .fragment) (by simp)
  unfold evhttpUriParseWithFlags
  rw [hscheme]
  simp only [hauthority, Option.bind_eq_bind, Option.bind_some, hend, htakeQuery, htakeFragment]
  rw [if_neg (by simp), tailText, upTo_append]

/-- The parts in which the parser has found a URI. -/
theorem parts_of_parse (h : evhttpUriParseWithFlags inetPton6 s flags = some u) :
    ∃ uri1 readp uri2 path query fragment gotAuthority,
      takeScheme { flags := flags } s = (uri1, readp) ∧
      takeAuthority inetPton6 uri1 readp = some (uri2, tailText path query fragment, gotAuthority) ∧
      endOfPath path .path flags = [] ∧ (∀ x ∈ query, endOfPath x .query flags = []) ∧
      (∀ x ∈ fragment, endOfPath x .fragment flags = []) ∧
      pathOk uri2 gotAuthority path = true ∧
      u = { uri2 with path := some path, query := query, fragment := fragment } := by
  unfold evhttpUriParseWithFlags at h
  rcases hscheme : takeScheme { flags := flags } s with ⟨uri1, readp⟩
  rw [hscheme] at h
  obtain ⟨⟨uri2, tail, gotAuthority⟩, hauthority, h⟩ := Option.bind_eq_some_iff.mp h
  dsimp only at hauthority h
  obtain ⟨hcut, hpath⟩ := endOfPath_upTo tail .path flags
  rcases hquery : takePart QUESTION .query flags (endOfPath tail .path flags) with ⟨query, rest⟩
  rw [hquery] at h
  rcases hfragment : takePart HASH .fragment flags rest with ⟨fragment, rest'⟩
  rw [hfragment] at h
  obtain ⟨hcutQuery, hqueryOk⟩ := takePart_inv hquery
  obtain ⟨hcutFragment, hfragmentOk⟩ := takePart_inv hfragment
  split_ifs at h with hend hok
  cases h
  obtain rfl : rest' = [] := not_not.mp hend
  rw [List.append_nil] at hcutFragment
  refine ⟨uri1, readp, uri2, upTo tail (endOfPath tail .path flags), query, fragment, gotAuthority,
    rfl, ?_, hpath, hqueryOk, hfragmentOk, hok, rfl⟩
  rw [tailText, ← hcutFragment, ← hcutQuery, ← hcut, hauthority]

/-- A path that follows an authority. -/
def Rooted (path : Bytes) : Prop := path.head? = some SLASH ∨ path = []

/-- An authority ends where the rest of the text begins. -/
theorem stops_tailText (h : Rooted path) (query fragment : Option Bytes) :
    Stops authorityChar (tailText path query fragment) := by
  rcases h with hslash | rfl
  · cases path with
    | nil => cases hslash
    | cons b path =>
      cases hslash
      exact stops_cons.mpr rfl
  cases query with
  | some q => exact stops_cons.mpr rfl
  | none =>
    cases fragment with
    | some f => exact stops_cons.mpr rfl
    | none => exact stops_nil

theorem authorityChar_of_mem_text (huser : ∀ x ∈ userinfo, userinfoOk x = true)
    (hhost : ∀ b ∈ host, authorityChar b = true) :
    ∀ b ∈ authorityText userinfo host port, authorityChar b = true := by
  have hhostText : ∀ b ∈ hostText host port, authorityChar b = true := by
    intro b hb
    rcases mem_hostText hb with hb | rfl | hdigit
    · exact hhost b hb
    · rfl
    · exact (ne_of_class hdigit (by decide)).2
  intro b hb
  cases userinfo with
  | none =>
    exact hhostText b hb
  | some x =>
    rw [authorityText_some] at hb
    rcases List.mem_append.mp hb with hb | hb
    · exact (userinfo_ne (huser x rfl) hb).2
    rcases List.mem_cons.mp hb with rfl | hb
    · rfl
    · exact hhostText b hb

section
variable (inetPton6 uri)

theorem takeAuthority_text {text tail : Bytes} (htext : ∀ b ∈ text, authorityChar b = true)
    (htail : Stops authorityChar tail) :
    takeAuthority inetPton6 uri (SLASH :: SLASH :: (text ++ tail)) =
      (parseAuthority inetPton6 uri text).map fun uri => (uri, tail, true) := by
  rw [takeAuthority]
  simp only [List.drop_succ_cons, List.drop_zero, takeWhile_append_stops htext htail,
    dropWhile_append_stops htext htail]
  cases parseAuthority inetPton6 uri text <;> rfl

theorem takeAuthority_none (h : ¬ [SLASH, SLASH] <+: readp) :
    takeAuthority inetPton6 uri readp = some (uri, readp, false) := by
  rw [takeAuthority, if_neg (by simpa [List.isPrefixOf_iff_prefix] using h)]

end

/-- Two slashes at the beginning of the text are two slashes at the beginning of the path. -/
theorem slashes_tailText :
    [SLASH, SLASH] <+: tailText path query fragment ↔ [SLASH, SLASH] <+: path := by
  have hstop : (partText QUESTION query ++ partText HASH fragment).head? ≠ some SLASH :=
    fun hslash =>
    absurd (partStops_query query fragment SLASH hslash) (by decide)
  unfold tailText
  generalize partText QUESTION query ++ partText HASH fragment = rest at hstop
  match path with
  | [] =>
    cases rest with
    | nil => rfl
    | cons b rest =>
      have hb : SLASH ≠ b := fun heq => hstop (by rw [heq]; rfl)
      simp [hb]
  | [c] =>
    cases rest with
    | nil => rfl
    | cons b rest =>
      have hb : SLASH ≠ b := fun heq => hstop (by rw [heq]; rfl)
      simp [hb]
  | c :: d :: path => simp [List.cons_prefix_cons]

/-- The components of a URI, each well formed, such that they stand together. -/
structure UriOk (inetPton6 : Bytes → Bool) (u : EvhttpUri) (path : Bytes) : Prop where
  scheme : ∀ x ∈ u.scheme, schemeOk x = true
  path_eq : u.path = some path
  pathEnd : endOfPath path .path u.flags = []
  query : ∀ x ∈ u.query, endOfPath x .query u.flags = []
  fragment : ∀ x ∈ u.fragment, endOfPath x .fragment u.flags = []
  relative : u.host = none → u.userinfo = none ∧ u.port = -1 ∧ ¬ [SLASH, SLASH] <+: path ∧
    (u.scheme = none → pathMatchesNoscheme path = true)
  authority : ∀ host ∈ u.host, AuthorityOk inetPton6 u.userinfo host u.port ∧ Rooted path

theorem pathOk_true_iff : pathOk uri gotAuthority path = true ↔
      (gotAuthority = false → ¬ [SLASH, SLASH] <+: path) ∧ (gotAuthority = true → Rooted path) ∧
        (uri.scheme = none → pathMatchesNoscheme path = true) := by
  have hslashes : [SLASH, SLASH].isPrefixOf path = decide ([SLASH, SLASH] <+: path) := by
    rw [Bool.eq_iff_iff, List.isPrefixOf_iff_prefix, decide_eq_true_eq]
  unfold pathOk Rooted
  rw [hslashes]
  cases gotAuthority <;> cases uri.scheme <;> simp

theorem pathMatchesNoscheme_of_rooted (h : Rooted path) : pathMatchesNoscheme path = true := by
  rcases h with hslash | rfl
  · cases path with
    | nil => cases hslash
    | cons b path =>
      cases hslash
      rfl
  · rfl

/-- The text of a URI behind its scheme. -/
def schemelessText (u : EvhttpUri) (path : Bytes) : Bytes :=
  match u.host with
  | some host =>
    SLASH :: SLASH :: (authorityText u.userinfo host u.port ++ tailText path u.query u.fragment)
  | none => tailText path u.query u.fragment

theorem uriText_some (hscheme : u.scheme = some scheme) (hpath : u.path.getD [] = path) :
    uriText u = scheme ++ COLON :: schemelessText u path := by
  unfold uriText schemelessText tailText
  rw [hscheme, hpath]
  cases u.host <;> simp

theorem uriText_none (hscheme : u.scheme = none)
    (hpath : u.path.getD [] = path) : uriText u = schemelessText u path := by
  unfold uriText schemelessText tailText
  rw [hscheme, hpath]
  cases u.host <;> simp

/-- The parser takes the scheme off the text of a URI. -/
theorem takeScheme_uriText (hscheme : ∀ x ∈ u.scheme, schemeOk x = true)
    (hpath : u.path.getD [] = path)
    (hrelative : u.scheme = none → u.host = none → pathMatchesNoscheme path = true) (flags : Nat) :
    takeScheme { flags := flags } (uriText u) =
      ({ flags := flags, scheme := u.scheme }, schemelessText u path) := by
  cases hs : u.scheme with
  | some scheme => rw [uriText_some hs hpath, takeScheme_some _ (hscheme scheme hs)]
  | none =>
    rw [uriText_none hs hpath]
    refine takeScheme_none _ ?_
    unfold schemelessText
    cases hh : u.host with
    | some host => exact schemeless_of_cut (c := []) List.not_mem_nil (by decide) rfl
    | none => exact schemeless_tailText (hrelative hs hh) u.query u.fragment

/-- A URI whose components stand together is read back from its text. -/
theorem parse_uriText (h : UriOk inetPton6 u path) :
    evhttpUriParseWithFlags inetPton6 (uriText u) u.flags = some u := by
  have hpath : u.path.getD [] = path := by rw [h.path_eq, Option.getD_some]
  have hscheme := takeScheme_uriText h.scheme hpath (fun hs hh => (h.relative hh).2.2.2 hs) u.flags
  cases hh : u.host with
  | some host =>
    obtain ⟨hauth, hrooted⟩ := h.authority host hh
    have hchars : ∀ b ∈ authorityText u.userinfo host u.port, authorityChar b = true :=
      authorityChar_of_mem_text hauth.user hauth.delim
    have htake := takeAuthority_text inetPton6 { flags := u.flags, scheme := u.scheme } hchars
      (stops_tailText hrooted u.query u.fragment)
    rw [parseAuthority_text hauth rfl rfl] at htake
    rw [schemelessText, hh] at hscheme
    rw [parse_of_parts hscheme htake h.pathEnd h.query h.fragment, if_pos]
    · rw [← h.path_eq, ← hh]
    · exact pathOk_true_iff.mpr ⟨nofun, fun _ => hrooted,
        fun _ => pathMatchesNoscheme_of_rooted hrooted⟩
  | none =>
    obtain ⟨huser, hport, hslashes, hnoscheme⟩ := h.relative hh
    have hstart : ¬ [SLASH, SLASH] <+: tailText path u.query u.fragment :=
      mt slashes_tailText.mp hslashes
    have htake := takeAuthority_none inetPton6 { flags := u.flags, scheme := u.scheme } hstart
    rw [schemelessText, hh] at hscheme
    rw [parse_of_parts hscheme htake h.pathEnd h.query h.fragment, if_pos]
    · obtain ⟨flags, scheme, userinfo, host, port, path', query, fragment⟩ := u
      obtain rfl : userinfo = none := huser
      obtain rfl : host = none := hh
      obtain rfl : port = -1 := hport
      obtain rfl : path' = some path := h.path_eq
      rfl
    · exact pathOk_true_iff.mpr ⟨fun _ => hslashes, nofun, hnoscheme⟩

theorem takeAuthority_inv (h : takeAuthority inetPton6 uri readp = some (v, rest, gotAuthority))
    (huser : uri.userinfo = none) (hport : uri.port = -1) :
    (gotAuthority = false ∧ v = uri ∧ rest = readp ∧ ¬ [SLASH, SLASH] <+: readp) ∨
      (gotAuthority = true ∧ ∃ userinfo host port,
        v = { uri with userinfo := userinfo, host := some host, port := port } ∧
          AuthorityOk inetPton6 userinfo host port) := by
  unfold takeAuthority at h
  split at h
  · obtain ⟨w, hparse, h⟩ := Option.bind_eq_some_iff.mp h
    cases h
    have hchars : ∀ b ∈ (readp.drop 2).takeWhile authorityChar, authorityChar b = true :=
      fun b hb => List.mem_takeWhile_imp hb
    exact .inr ⟨rfl, parseAuthority_inv hparse huser hport hchars⟩
  · next hslashes =>
    cases h
    exact .inl ⟨rfl, rfl, rfl, by simpa [List.isPrefixOf_iff_prefix] using hslashes⟩

/-- The scheme that the parser finds is well formed. -/
theorem takeScheme_ok (h : takeScheme { flags := flags } s = (v, readp)) :
    v = { flags := flags, scheme := v.scheme } ∧ ∀ x ∈ v.scheme, schemeOk x = true := by
  rcases takeScheme_inv h with ⟨rfl, -, -⟩ | ⟨scheme, hok, -, rfl⟩
  · exact ⟨rfl, nofun⟩
  refine ⟨rfl, fun x hx => ?_⟩
  cases hx
  exact hok

/-- The parser accepts only URIs whose components stand together. -/
theorem uriOk_of_parse (h : evhttpUriParseWithFlags inetPton6 s flags = some u) :
    u.flags = flags ∧ ∃ path, UriOk inetPton6 u path := by
  obtain ⟨uri1, readp, uri2, path, query, fragment, gotAuthority, hscheme, hauthority, hpath,
      hquery,
    hfragment, hok, rfl⟩ := parts_of_parse h
  obtain ⟨huri1, hschemeOk⟩ := takeScheme_ok hscheme
  obtain ⟨hslashes, hrooted, hnoscheme⟩ := pathOk_true_iff.mp hok
  generalize uri1.scheme = scheme at huri1 hschemeOk
  subst huri1
  rcases takeAuthority_inv hauthority rfl rfl with
    ⟨hgot, rfl, -, -⟩ | ⟨hgot, userinfo, host, port, rfl, hauth⟩
  · refine ⟨rfl, path, hschemeOk, rfl, hpath, hquery, hfragment, fun _ => ?_, nofun⟩
    exact ⟨rfl, rfl, hslashes hgot, hnoscheme⟩
  refine ⟨rfl, path, hschemeOk, rfl, hpath, hquery, hfragment, nofun, ?_⟩
  intro x hx
  cases hx
  exact ⟨hauth, hrooted hgot⟩

/-- `evhttp_uri_join` gives the text of a URI whose components stand together. -/
theorem join_uriOk (h : UriOk inetPton6 u path) {limit : Nat}
    (hlimit : (uriText u).length < limit) : evhttpUriJoin u limit = some (uriText u) := by
  have hroot : ¬ (u.host.isSome ∧ (u.path.getD []).head? ≠ some SLASH ∧ u.path.getD [] ≠ []) := by
    rintro ⟨hsome, hhead, hne⟩
    obtain ⟨host, hhost⟩ := Option.isSome_iff_exists.mp hsome
    rw [h.path_eq] at hhead hne
    rcases (h.authority host hhost).2 with hslash | hnil
    · exact hhead hslash
    · exact hne hnil
  rw [evhttpUriJoin, if_neg (by omega), if_neg hroot, if_neg (by omega)]

/-- **Parsing and joining are stable.** A URI that the parser has found in a text is written by
`evhttp_uri_join` into every buffer that the text and the `NUL` fit into, and the parser finds it
again in what has been written. The two texts need not be the same: a nil port and the zeros in
front of a port are lost. -/
theorem parse_join_parse (inetPton6 : Bytes → Bool) {s : Bytes} {flags : Nat}
    {u : EvhttpUri} (h : evhttpUriParseWithFlags inetPton6 s flags = some u) {limit : Nat}
    (hlimit : (uriText u).length < limit) :
    ∃ t, evhttpUriJoin u limit = some t ∧ evhttpUriParseWithFlags inetPton6 t flags = some u := by
  obtain ⟨rfl, path, hok⟩ := uriOk_of_parse h
  exact ⟨uriText u, join_uriOk hok hlimit, parse_uriText hok⟩

/-- The URI of `http://me@a:080/p?q#f`. -/
def sampleUri : EvhttpUri :=
  { scheme := some (ascii "http"), userinfo := some (ascii "me"), host := some (ascii "a"),
    port := 80, path := some (ascii "/p"), query := some (ascii "q"), fragment := some (ascii "f") }

/-- A URI with all its parts. -/
theorem parse_join_parse_sample :
    evhttpUriParseWithFlags (fun _ => false) (ascii "http://me@a:080/p?q#f") 0 = some sampleUri ∧
      ∃ t, evhttpUriJoin sampleUri 100 = some t ∧
        evhttpUriParseWithFlags (fun _ => false) t 0 = some sampleUri := by
  have hparse : evhttpUriParseWithFlags (fun _ => false) (ascii "http://me@a:080/p?q#f") 0 =
      some sampleUri := by decide +kernel
  exact ⟨hparse, parse_join_parse _ hparse
    (by simp [uriText, sampleUri, authorityText, printDec, partText, ascii])⟩

end Libevent
