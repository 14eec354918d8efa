import Libevent.Dns.Request
import Mathlib.Tactic

/-!
# `Libevent.Proofs.Dns.Links`: requests, handles and scheduled callbacks

`DnsLinks` is the part of a base that says who points at whom: a request at its handle, a handle at
its current request, a scheduled callback at its handle, a nameserver at the handle of its probe.
`DnsLinks.Ok` says that these pointers are to objects that are allocated, that requests and handles
point at each other, and that a handle without a request waits for its callback.

In the middle of a function this holds up to exceptions, which `DnsCtx` lists: requests that have no
handle yet, requests whose callback is scheduled and that are about to be finished, nameservers
whose probe is being canceled, and handles that are between two requests.
-/

namespace Libevent

open Function

/-- The part of a base that says who points at whom. -/
@[ext]
structure DnsLinks where
  /-- The handle of a request, its callback and its type. -/
  owner : Nat → Option (Option Nat × DnsCallback × DnsType)
  /-- The current request of a handle, and its `pending_cb`. -/
  current : Nat → Option (Option Nat × Bool)
  /-- The handle is that of a search. -/
  searching : Nat → Bool
  deferred : List DeferredReply
  probe : Nat → Option Nat
  next : Nat

def EvdnsBase.links (base : EvdnsBase) : DnsLinks where
  owner id := (base.req id).map fun req => (req.handle, req.userCallback, req.requestType)
  current h := (base.handle h).map fun handle => (handle.currentReq, handle.pendingCb)
  searching h := (base.handle h).any (·.searchState.isSome)
  deferred := base.deferred
  probe ns := (base.nameserver ns).probeRequest
  next := base.nextHandle

/-- The exceptions that hold in the middle of a function. -/
structure DnsCtx where
  /-- Requests that are in no ring. -/
  loose : List Nat := []
  /-- Requests whose callback is scheduled. -/
  closing : List Nat := []
  /-- Nameservers whose probe is being canceled. -/
  hidden : List Nat := []
  /-- Handles that have no request and wait for no callback. -/
  idle : List Nat := []
  /-- A request that has been put into flight and is about to be sent. -/
  fresh : Option Nat := none
  /-- Nameservers are being freed, so that one of them may be used afterwards. -/
  tolerant : Prop := False

/-- One more nameserver is an exception. -/
abbrev DnsCtx.hide (ctx : DnsCtx) (ns : Nat) : DnsCtx := { ctx with hidden := ns :: ctx.hidden }

namespace DnsLinks

/-- What holds of a request: its handle points at it, unless it has none yet. -/
structure ReqOk (l : DnsLinks) (ctx : DnsCtx) (id : Nat) : Prop where
  linked : ∀ h c, l.owner id = some (some h, c) → ∃ pending, l.current h = some (some id, pending)
  owned : ∀ c, l.owner id = some (none, c) → id ∈ ctx.loose

/-- What holds of the current request of a handle: it points back, and its callback is the one that
the search or the probe of the handle needs. -/
structure Serves (l : DnsLinks) (ctx : DnsCtx) (h id : Nat) (pending : Bool)
    (c : DnsCallback × DnsType) : Prop where
  owner : l.owner id = some (some h, c)
  closing : pending = true ↔ id ∈ ctx.closing
  user : l.searching h = true → c.1 = .user
  probe : ∀ ns, ns ∉ ctx.hidden → l.probe ns = some h → c.1 = .probe ns

/-- What holds of a handle. -/
structure HandleOk (l : DnsLinks) (ctx : DnsCtx) (h : Nat) : Prop where
  serves : ∀ id pending, l.current h = some (some id, pending) → ∃ c, l.Serves ctx h id pending c
  scheduled : ∀ d ∈ l.deferred, d.handle = some h → (∃ cur, l.current h = some (cur, true)) ∧
    ∀ ns, ns ∉ ctx.hidden → l.probe ns = some h → d.callback = .probe ns ∧ d.err ≠ .cancel
  live : ∀ ns, ns ∉ ctx.hidden → l.probe ns = some h → l.current h ≠ none
  fresh : l.next ≤ h → l.current h = none
  waits : ∀ cur, l.current h = some (cur, true) → h ∈ l.deferred.filterMap (·.handle) ∨ h ∈ ctx.idle
  idle : l.current h = some (none, false) → h ∈ ctx.idle

/-- The pointers are to objects that are allocated, and requests and handles point at each other. -/
structure Ok (l : DnsLinks) (ctx : DnsCtx) : Prop where
  reqs : ∀ id, l.ReqOk ctx id
  handles : ∀ h, l.HandleOk ctx h
  once : (l.deferred.filterMap (·.handle)).Nodup

variable {l l' : DnsLinks} {ctx ctx' : DnsCtx} {hd id ns : Nat} {c : DnsCallback × DnsType}
  {p : Bool} {hidden : List Nat} {d : DeferredReply} {rest : List DeferredReply} {I H : Set Nat}
  {err : DnsErr} {loose : List Nat}

section Facts

variable (h : l.Ok ctx)
include h

theorem Ok.linked (id hd : Nat) (c : DnsCallback × DnsType)
    (howner : l.owner id = some (some hd, c)) :
    ∃ pending, l.current hd = some (some id, pending) :=
  (h.reqs id).linked hd c howner

theorem Ok.owned (id : Nat) (c : DnsCallback × DnsType) (howner : l.owner id = some (none, c)) :
    id ∈ ctx.loose :=
  (h.reqs id).owned c howner

theorem Ok.back (hd id : Nat) (pending : Bool) (hcur : l.current hd = some (some id, pending)) :
    ∃ c, l.owner id = some (some hd, c) :=
  ((h.handles hd).serves id pending hcur).imp fun _ hs => hs.owner

theorem Ok.scheduled (d : DeferredReply) (hd : d ∈ l.deferred) (x : Nat) (hx : d.handle = some x) :
    ∃ cur, l.current x = some (cur, true) :=
  ((h.handles x).scheduled d hd hx).1

theorem Ok.pending (hd id : Nat) : l.current hd = some (some id, true) ↔
    id ∈ ctx.closing ∧ ∃ c, l.owner id = some (some hd, c) := by
  constructor
  · intro hcur
    obtain ⟨c, hs⟩ := (h.handles hd).serves id true hcur
    exact ⟨hs.closing.mp rfl, c, hs.owner⟩
  · rintro ⟨hclosing, c, howner⟩
    obtain ⟨p, hcur⟩ := h.linked id hd c howner
    obtain ⟨c', hs⟩ := (h.handles hd).serves id p hcur
    rw [hcur, hs.closing.mpr hclosing]

theorem Ok.probe (ns : Nat) (hns : ns ∉ ctx.hidden) (hd : Nat) (hprobe : l.probe ns = some hd) :
    l.current hd ≠ none ∧ (∀ id pending, l.current hd = some (some id, pending) →
        ∃ h' type, l.owner id = some (h', .probe ns, type)) ∧
      ∀ d ∈ l.deferred, d.handle = some hd → d.callback = .probe ns ∧ d.err ≠ .cancel := by
  refine ⟨(h.handles hd).live ns hns hprobe, fun id p hcur => ?_, fun d hd' hdx =>
    ((h.handles hd).scheduled d hd' hdx).2 ns hns hprobe⟩
  obtain ⟨c, hs⟩ := (h.handles hd).serves id p hcur
  exact ⟨some hd, c.2, by rw [hs.owner, ← hs.probe ns hns hprobe]⟩

theorem Ok.fresh (hd : Nat) (hnext : l.next ≤ hd) : l.current hd = none :=
  (h.handles hd).fresh hnext

theorem Ok.waits (hd : Nat) (cur : Option Nat) (hcur : l.current hd = some (cur, true)) :
    hd ∈ l.deferred.filterMap (·.handle) ∨ hd ∈ ctx.idle :=
  (h.handles hd).waits cur hcur

theorem Ok.idle (hd : Nat) (hcur : l.current hd = some (none, false)) : hd ∈ ctx.idle :=
  (h.handles hd).idle hcur

theorem Ok.search (hd id : Nat) (pending : Bool) (h' : Option Nat) (c : DnsCallback × DnsType)
    (hsearch : l.searching hd = true) (hcur : l.current hd = some (some id, pending))
    (howner : l.owner id = some (h', c)) : c.1 = .user := by
  obtain ⟨c', hs⟩ := (h.handles hd).serves id pending hcur
  cases hs.owner.symm.trans howner
  exact hs.user hsearch

/-- A handle whose callback is not scheduled has no callback scheduled. -/
theorem Ok.not_scheduled {cur : Option Nat} (hcur : l.current hd = some (cur, false)) :
    hd ∉ l.deferred.filterMap (·.handle) := by
  intro hmem
  obtain ⟨d, hd', heq⟩ := List.mem_filterMap.mp hmem
  obtain ⟨cur', hcur'⟩ := h.scheduled d hd' hd heq
  rw [hcur] at hcur'
  cases hcur'

end Facts

/-- `l'` is `l` but for the requests of `I` and the handles of `H`, which point at each other only.
-/
structure Differs (l l' : DnsLinks) (ctx ctx' : DnsCtx) (I H : Set Nat) : Prop where
  owner : ∀ id ∉ I, l'.owner id = l.owner id
  handle : ∀ h ∉ H, l'.current h = l.current h ∧ l'.searching h = l.searching h
  deferred : ∀ d h, h ∉ H → d.handle = some h → (d ∈ l'.deferred ↔ d ∈ l.deferred)
  probe : l'.probe = l.probe
  next : l.next ≤ l'.next
  loose : ∀ id ∉ I, id ∈ ctx.loose → id ∈ ctx'.loose
  closing : ∀ id ∉ I, (id ∈ ctx'.closing ↔ id ∈ ctx.closing)
  hidden : ctx'.hidden = ctx.hidden
  idle : ∀ h ∉ H, h ∈ ctx.idle → h ∈ ctx'.idle
  inside : ∀ id h c, l.owner id = some (some h, c) → (id ∈ I ↔ h ∈ H)

theorem Differs.same (l : DnsLinks)
    (hinside : ∀ id h c, l.owner id = some (some h, c) → (id ∈ I ↔ h ∈ H)) :
    l.Differs l ctx ctx I H where
  owner _ _ := rfl
  handle _ _ := ⟨rfl, rfl⟩
  deferred _ _ _ _ := Iff.rfl
  probe := rfl
  next := le_rfl
  loose _ _ hi := hi
  closing _ _ := Iff.rfl
  hidden := rfl
  idle _ _ hx := hx
  inside := hinside

/-- A change is to be checked for the requests and handles that it concerns. -/
theorem Ok.touch (h : l.Ok ctx) (hdiff : l.Differs l' ctx ctx' I H)
    (hreqs : ∀ id ∈ I, l'.ReqOk ctx' id) (hhandles : ∀ x ∈ H, l'.HandleOk ctx' x)
    (honce : (l'.deferred.filterMap (·.handle)).Nodup) : l'.Ok ctx' where
  once := honce
  reqs id := by
    by_cases hid : id ∈ I
    · exact hreqs id hid
    refine ⟨fun x c howner => ?_, fun c howner => ?_⟩
    · rw [hdiff.owner id hid] at howner
      have hx : x ∉ H := fun hx => hid ((hdiff.inside id x c howner).mpr hx)
      rw [(hdiff.handle x hx).1]
      exact h.linked id x c howner
    · exact hdiff.loose id hid (h.owned id c ((hdiff.owner id hid).symm.trans howner))
  handles x := by
    by_cases hx : x ∈ H
    · exact hhandles x hx
    obtain ⟨hcur, hsearch⟩ := hdiff.handle x hx
    have hold := h.handles x
    constructor
    · -- the request of another handle is another request
      intro id p hid
      obtain ⟨c, hs⟩ := hold.serves id p (hcur ▸ hid)
      have hout : id ∉ I := fun hin => hx ((hdiff.inside id x c hs.owner).mp hin)
      exact ⟨c, (hdiff.owner id hout).trans hs.owner, hs.closing.trans (hdiff.closing id hout).symm,
        hsearch ▸ hs.user, by rw [hdiff.probe, hdiff.hidden]; exact hs.probe⟩
    · intro d hd hdx
      rw [hcur, hdiff.probe, hdiff.hidden]
      exact hold.scheduled d ((hdiff.deferred d x hx hdx).mp hd) hdx
    · rw [hcur, hdiff.probe, hdiff.hidden]
      exact hold.live
    · rw [hcur]
      exact fun hnext => hold.fresh (hdiff.next.trans hnext)
    · intro cur hw
      refine (hold.waits cur (hcur ▸ hw)).imp (fun hmem => ?_) (hdiff.idle x hx)
      obtain ⟨d, hd, hdx⟩ := List.mem_filterMap.mp hmem
      exact List.mem_filterMap.mpr ⟨d, (hdiff.deferred d x hx hdx).mpr hd, hdx⟩
    · rw [hcur]
      exact fun hi => hdiff.idle x hx (hold.idle hi)

/-- A request that has a handle is the one that the handle points at. -/
theorem Ok.inside (h : l.Ok ctx) (howner : l.owner id = some (some hd, c))
    (hcur : l.current hd = some (some id, p)) (i x : Nat) (c' : DnsCallback × DnsType)
    (hi : l.owner i = some (some x, c')) : i = id ↔ x = hd := by
  constructor
  · rintro rfl
    cases hi.symm.trans howner
    rfl
  · rintro rfl
    obtain ⟨q, hq⟩ := h.linked i x c' hi
    cases hq.symm.trans hcur
    rfl

/-! ### A callback is scheduled -/

/-- `reply_schedule_callback`. -/
def schedule (l : DnsLinks) (id hd : Nat) (c : DnsCallback × DnsType) (err : DnsErr) : DnsLinks :=
  { l with
    current := update l.current hd (some (some id, true))
    deferred := l.deferred ++ [⟨some hd, c.1, err⟩] }

/-- The handle waits for its callback from here on. -/
theorem Ok.schedule (h : l.Ok ctx) (howner : l.owner id = some (some hd, c))
    (hcur : l.current hd = some (some id, false))
    (hprobe : err = .cancel → ∀ ns, l.probe ns = some hd → ns ∈ ctx.hidden) :
    (l.schedule id hd c err).Ok { ctx with closing := id :: ctx.closing } := by
  have hself : (l.schedule id hd c err).current hd = some (some id, true) := update_self ..
  obtain ⟨c', hs⟩ := (h.handles hd).serves id false hcur
  cases hs.owner.symm.trans howner
  refine h.touch (I := {id}) (H := {hd}) { Differs.same l (h.inside howner hcur) with
      handle := fun _ hx => ⟨update_of_ne hx _ _, rfl⟩
      deferred := ?_
      closing := fun i hi => List.mem_cons.trans (or_iff_right hi) } ?_ ?_ ?_
  · intro d x hx hdx
    refine List.mem_append.trans (or_iff_left fun hd' => hx ?_)
    obtain rfl := List.mem_singleton.mp hd'
    exact (Option.some.inj hdx).symm
  · rintro i rfl
    refine ⟨fun x c1 hi => ?_, (h.reqs i).owned⟩
    obtain rfl := (h.inside howner hcur i x c1 hi).mp rfl
    exact ⟨true, hself⟩
  · rintro x rfl
    refine ⟨?_, ?_, fun _ _ _ hx => ?_, fun hx => ?_, fun _ _ => .inl ?_, fun hx => ?_⟩
    · intro i p hi
      cases hself.symm.trans hi
      exact ⟨c, howner, iff_of_true rfl List.mem_cons_self, hs.user, hs.probe⟩
    · intro d hd' hdx
      refine ⟨⟨_, hself⟩, fun ns hns hx => ?_⟩
      rcases List.mem_append.mp hd' with hd' | hd'
      · exact ((h.handles x).scheduled d hd' hdx).2 ns hns hx
      · obtain rfl := List.mem_singleton.mp hd'
        exact ⟨hs.probe ns hns hx, fun herr => hns (hprobe herr ns hx)⟩
    · cases hself.symm.trans hx
    · cases hcur.symm.trans (h.fresh x hx)
    · exact List.mem_filterMap.mpr ⟨_, List.mem_append_right _ (List.mem_singleton_self _), rfl⟩
    · cases hself.symm.trans hx
  · have hcons : (l.schedule id hd c err).deferred.filterMap (·.handle) =
        l.deferred.filterMap (·.handle) ++ [hd] := by
      simp [DnsLinks.schedule]
    rw [hcons, List.nodup_append]
    refine ⟨h.once, List.nodup_singleton hd, fun x hx y hy heq => ?_⟩
    obtain rfl := List.mem_singleton.mp hy
    exact h.not_scheduled hcur (heq ▸ hx)

/-! ### A request ends -/

/-- A request is freed, and its handle points at no request. -/
def release (l : DnsLinks) (id hd : Nat) (pending search : Bool) : DnsLinks :=
  { l with
    owner := update l.owner id none
    current := update l.current hd (some (none, pending))
    searching := update l.searching hd search }

theorem Ok.release (h : l.Ok ctx) {search : Bool} (howner : l.owner id = some (some hd, c))
    (hcur : l.current hd = some (some id, p)) {closing idle : List Nat}
    (hclosing : ∀ i, i ≠ id → (i ∈ closing ↔ i ∈ ctx.closing)) (hidle : ∀ x ∈ ctx.idle, x ∈ idle)
    (hfree : p = false → hd ∈ idle) :
    (l.release id hd p search).Ok { ctx with closing := closing, idle := idle } := by
  have hself : (l.release id hd p search).current hd = some (none, p) := update_self ..
  have hgone : (l.release id hd p search).owner id = none := update_self ..
  refine h.touch (I := {id}) (H := {hd}) { Differs.same l (h.inside howner hcur) with
      owner := fun _ hi => update_of_ne hi _ _
      handle := fun _ hx => ⟨update_of_ne hx _ _, update_of_ne hx _ _⟩
      closing := hclosing
      idle := fun x _ hx => hidle x hx } ?_ ?_ h.once
  · rintro i rfl
    exact ⟨fun _ _ hi => (by cases hgone.symm.trans hi), fun _ hi => (by cases hgone.symm.trans hi)⟩
  rintro x rfl
  refine ⟨fun _ _ hx => ?_, fun d hd' hdx => ?_, fun _ _ _ hx => ?_, fun hx => ?_,
    fun cur hx => ?_, fun hx => ?_⟩
  · cases hself.symm.trans hx
  · obtain ⟨⟨cur, hpending⟩, hprobe⟩ := (h.handles x).scheduled d hd' hdx
    cases hcur.symm.trans hpending
    exact ⟨⟨none, hself⟩, hprobe⟩
  · cases hself.symm.trans hx
  · cases hcur.symm.trans (h.fresh x hx)
  · cases hself.symm.trans hx
    exact (h.waits x _ hcur).imp_right (hidle x)
  · cases hself.symm.trans hx
    exact hfree rfl

/-! ### A request begins -/

/-- A request is made without a handle. -/
def bear (l : DnsLinks) (id : Nat) (c : DnsCallback × DnsType) : DnsLinks :=
  { l with owner := update l.owner id (some (none, c)) }

/-- A request gets a handle that has none. -/
def adopt (l : DnsLinks) (id hd : Nat) (c : DnsCallback × DnsType) : DnsLinks :=
  { l with
    owner := update l.owner id (some (some hd, c))
    current := update l.current hd (some (some id, false)) }

theorem Ok.bear (h : l.Ok ctx) (c : DnsCallback × DnsType) (hnew : l.owner id = none)
    {idle : List Nat} (hidle : ∀ x ∈ ctx.idle, x ∈ idle) :
    (l.bear id c).Ok { ctx with loose := id :: ctx.loose, idle := idle } := by
  have hself : (l.bear id c).owner id = some (none, c) := update_self ..
  refine h.touch (I := {id}) (H := ∅)
    { Differs.same l (fun i x c' hi => iff_of_false ?_ (Set.notMem_empty x)) with
      owner := fun _ hi => update_of_ne hi _ _
      loose := fun i _ hi => List.mem_cons_of_mem id hi
      idle := fun x _ hx => hidle x hx } ?_ (by simp) h.once
  · rintro rfl
    cases hnew.symm.trans hi
  · rintro i rfl
    exact ⟨fun _ _ hi => (by cases hself.symm.trans hi), fun _ _ => List.mem_cons_self⟩

theorem Ok.adopt (h : l.Ok ctx) (hnew : ∀ x c', l.owner id ≠ some (some x, c'))
    (hcur : l.current hd = some (none, false)) (hclosing : id ∉ ctx.closing)
    (hprobe : ∀ ns, ns ∉ ctx.hidden → l.probe ns = some hd → c.1 = .probe ns)
    (hsearch : l.searching hd = true → c.1 = .user) {idle : List Nat}
    (hidle : ∀ x ∈ ctx.idle, x ≠ hd → x ∈ idle) :
    (l.adopt id hd c).Ok { ctx with idle := idle } := by
  have hself : (l.adopt id hd c).owner id = some (some hd, c) := update_self ..
  have hhandle : (l.adopt id hd c).current hd = some (some id, false) := update_self ..
  refine h.touch (I := {id}) (H := {hd}) { Differs.same l (fun i x c' hi => iff_of_false ?_ ?_) with
      owner := fun _ hi => update_of_ne hi _ _
      handle := fun _ hx => ⟨update_of_ne hx _ _, rfl⟩
      idle := fun x hx hin => hidle x hin hx } ?_ ?_ h.once
  · rintro rfl
    exact hnew x c' hi
  · rintro rfl
    obtain ⟨p, hp⟩ := h.linked i x c' hi
    cases hcur.symm.trans hp
  · rintro i rfl
    refine ⟨fun x c' hi => ?_, fun _ hi => by cases hself.symm.trans hi⟩
    cases hself.symm.trans hi
    exact ⟨false, hhandle⟩
  rintro x rfl
  refine ⟨fun i p hi => ?_, fun d hd' hdx => ?_, fun _ _ _ hx => ?_, fun hx => ?_,
    fun _ hx => ?_, fun hx => ?_⟩
  · cases hhandle.symm.trans hi
    exact ⟨c, hself, iff_of_false Bool.false_ne_true hclosing, hsearch, hprobe⟩
  · exact absurd (List.mem_filterMap.mpr ⟨d, hd', hdx⟩) (h.not_scheduled hcur)
  · cases hhandle.symm.trans hx
  · cases hcur.symm.trans (h.fresh x hx)
  · cases hhandle.symm.trans hx
  · cases hhandle.symm.trans hx

/-- Other requests may be without a handle, and another one may be about to be sent. -/
theorem Ok.toLoose (h : l.Ok ctx) {fresh : Option Nat}
    (hloose : ∀ id c, l.owner id = some (none, c) → id ∈ ctx.loose → id ∈ loose) :
    l.Ok { ctx with loose := loose, fresh := fresh } where
  once := h.once
  reqs id := ⟨h.linked id, fun c hid => hloose id c hid (h.owned id c hid)⟩
  handles x :=
    { h.handles x with
      serves := fun id p hid => ((h.handles x).serves id p hid).imp fun _ hs => { hs with } }

/-- A request that has a handle may be in a ring. -/
theorem Ok.unloose (h : l.Ok { ctx with loose := id :: loose })
    (howner : l.owner id = some (some hd, c)) :
    l.Ok { ctx with loose := loose } := by
  refine h.toLoose fun i c' hi hmem => (List.mem_cons.mp hmem).resolve_left ?_
  rintro rfl
  cases howner.symm.trans hi

/-! ### Handles -/

/-- A handle is allocated. -/
def newHandle (l : DnsLinks) : DnsLinks :=
  { l with
    current := update l.current l.next (some (none, false))
    searching := update l.searching l.next false
    next := l.next + 1 }

/-- A handle is freed. -/
def freeHandle (l : DnsLinks) (hd : Nat) : DnsLinks :=
  { l with
    current := update l.current hd none
    searching := update l.searching hd false }

theorem Ok.newHandle (h : l.Ok ctx) : l.newHandle.Ok { ctx with idle := l.next :: ctx.idle } := by
  have hself : l.newHandle.current l.next = some (none, false) := update_self ..
  have hnone := h.fresh l.next le_rfl
  refine h.touch (I := ∅) (H := {l.next})
    { Differs.same l (fun i x c hi => iff_of_false (Set.notMem_empty i) ?_) with
      handle := fun _ hx => ⟨update_of_ne hx _ _, update_of_ne hx _ _⟩
      next := Nat.le_succ _
      idle := fun _ _ hx => List.mem_cons_of_mem _ hx } (by simp) ?_ h.once
  · rintro rfl
    obtain ⟨p, hp⟩ := h.linked i l.next c hi
    cases hnone.symm.trans hp
  rintro x rfl
  refine ⟨fun _ _ hx => ?_, fun d hd hdx => ?_, fun _ _ _ hx => ?_, fun hx => ?_,
    fun _ hx => ?_, fun _ => List.mem_cons_self⟩
  · cases hself.symm.trans hx
  · obtain ⟨cur, hcur⟩ := h.scheduled d hd _ hdx
    cases hnone.symm.trans hcur
  · cases hself.symm.trans hx
  · exact absurd hx (Nat.not_succ_le_self _)
  · cases hself.symm.trans hx

theorem Ok.freeHandle (h : l.Ok ctx) (hcur : l.current hd = some (none, p))
    (hdeferred : hd ∉ l.deferred.filterMap (·.handle))
    (hprobe : ∀ ns, ns ∉ ctx.hidden → l.probe ns ≠ some hd) {idle : List Nat}
    (hidle : ∀ x ∈ ctx.idle, x ≠ hd → x ∈ idle) :
    (l.freeHandle hd).Ok { ctx with idle := idle } := by
  have hself : (l.freeHandle hd).current hd = none := update_self ..
  refine h.touch (I := ∅) (H := {hd})
    { Differs.same l (fun i x c hi => iff_of_false (Set.notMem_empty i) ?_) with
      handle := fun _ hx => ⟨update_of_ne hx _ _, update_of_ne hx _ _⟩
      idle := fun x hx hin => hidle x hin hx } (by simp) ?_ h.once
  · rintro rfl
    obtain ⟨q, hq⟩ := h.linked i x c hi
    cases hcur.symm.trans hq
  rintro x rfl
  refine ⟨fun _ _ hx => ?_, fun d hd' hdx => ?_, fun ns hns hx => absurd hx (hprobe ns hns),
    fun _ => hself, fun _ hx => ?_, fun hx => ?_⟩
  · cases hself.symm.trans hx
  · exact absurd (List.mem_filterMap.mpr ⟨d, hd', hdx⟩) hdeferred
  · cases hself.symm.trans hx
  · cases hself.symm.trans hx

/-- A search begins or ends. -/
def setSearch (l : DnsLinks) (hd : Nat) (search : Bool) : DnsLinks :=
  { l with searching := update l.searching hd search }

theorem Ok.setSearch (h : l.Ok ctx) {search : Bool} (huser : search = true → ∀ id p h' c, l.current
      hd = some (some id, p) → l.owner id = some (h', c) → c.1 = .user) :
    (l.setSearch hd search).Ok ctx :=
  { h with
    reqs := fun id => { h.reqs id with }
    handles := fun x => { h.handles x with
      serves := by
        intro id p hid
        obtain ⟨c, hs⟩ := (h.handles x).serves id p hid
        refine ⟨c, { hs with user := fun hsearch => ?_ }⟩
        by_cases hx : x = hd
        · subst hx
          exact huser ((update_self ..).symm.trans hsearch) id p _ c hid hs.owner
        · exact hs.user ((update_of_ne hx _ _).symm.trans hsearch) } }

/-! ### Probes and callbacks -/

/-- A nameserver gets a probe, or forgets it. -/
def setProbe (l : DnsLinks) (ns : Nat) (probe : Option Nat) : DnsLinks :=
  { l with probe := update l.probe ns probe }

theorem setProbe_self (l : DnsLinks) (ns : Nat) (probe : Option Nat) :
    (l.setProbe ns probe).probe ns = probe := update_self ..

theorem setProbe_of_ne (l : DnsLinks) {n : Nat} (hne : n ≠ ns) (probe : Option Nat) :
    (l.setProbe ns probe).probe n = l.probe n := update_of_ne hne _ _

/-- A nameserver has a handle as its probe as before, or the handle has a request that is its probe.
-/
theorem Ok.reprobe (h : l.Ok ctx) {probe : Nat → Option Nat} (hprobe : ∀ ns hd, ns ∉ hidden → probe
      ns = some hd → (ns ∉ ctx.hidden ∧ l.probe ns = some hd) ∨ ∃ id c, l.current hd = some (some
      id, false) ∧ l.owner id = some (some hd, c) ∧ c.1 = .probe ns) :
    { l with probe := probe }.Ok { ctx with hidden := hidden } where
  once := h.once
  reqs id := { h.reqs id with }
  handles x :=
    { h.handles x with
      serves := by
        intro id p hid
        obtain ⟨c, hs⟩ := (h.handles x).serves id p hid
        refine ⟨c, { hs with probe := fun ns hns hx => ?_ }⟩
        rcases hprobe ns x hns hx with ⟨hold, hx⟩ | ⟨i, c', hcur, howner, hc⟩
        · exact hs.probe ns hold hx
        cases hid.symm.trans hcur
        cases hs.owner.symm.trans howner
        exact hc
      scheduled := by
        intro d hd hdx
        refine ⟨h.scheduled d hd x hdx, fun ns hns hx => ?_⟩
        rcases hprobe ns x hns hx with ⟨hold, hx⟩ | ⟨_, _, hcur, -⟩
        · exact ((h.handles x).scheduled d hd hdx).2 ns hold hx
        · exact absurd (List.mem_filterMap.mpr ⟨d, hd, hdx⟩) (h.not_scheduled hcur)
      live := by
        intro ns hns hx
        rcases hprobe ns x hns hx with ⟨hold, hx⟩ | ⟨_, _, hcur, -⟩
        · exact (h.handles x).live ns hold hx
        · exact fun hnone => by cases hnone.symm.trans hcur }

/-- A nameserver without a probe is no exception. -/
theorem Ok.forget (h : l.Ok { ctx with hidden := ns :: hidden }) :
    (l.setProbe ns none).Ok { ctx with hidden := hidden } :=
  h.reprobe fun n hd hn hx => by
    have hne : n ≠ ns := by
      rintro rfl
      cases (setProbe_self l n none).symm.trans hx
    exact .inl ⟨by simp [hne, hn], (setProbe_of_ne l hne none).symm.trans hx⟩

theorem Ok.toHidden (h : l.Ok ctx) (hsub : ∀ n ∈ ctx.hidden, n ∈ hidden) :
    l.Ok { ctx with hidden := hidden } :=
  h.reprobe fun n _ hn hx => .inl ⟨fun hmem => hn (hsub n hmem), hx⟩

/-- The probe of a nameserver that is an exception may be any. -/
theorem Ok.setProbe (h : l.Ok ctx) (hns : ns ∈ ctx.hidden) (probe : Option Nat) :
    (l.setProbe ns probe).Ok ctx :=
  h.reprobe fun _ _ hn hx =>
    .inl ⟨hn, (setProbe_of_ne l (ne_of_mem_of_not_mem hns hn).symm probe).symm.trans hx⟩

/-- A nameserver whose probe is under way is no exception. -/
theorem Ok.probing {type : DnsType} (h : l.Ok { ctx with hidden := ns :: hidden })
    (hprobe : l.probe ns = some hd) (hcur : l.current hd = some (some id, false))
    (howner : l.owner id = some (some hd, .probe ns, type)) : l.Ok { ctx with hidden := hidden } :=
  h.reprobe fun n x hn hx => by
    by_cases hne : n = ns
    · subst hne
      cases hprobe.symm.trans hx
      exact .inr ⟨id, _, hcur, howner, rfl⟩
    · exact .inl ⟨by simp [hne, hn], hx⟩

/-- The first callback is taken off the queue. -/
theorem Ok.pop (h : l.Ok ctx) (hdeferred : l.deferred = d :: rest) :
    { l with deferred := rest }.Ok { ctx with idle := d.handle.toList ++ ctx.idle } :=
  { reqs := fun id => { h.reqs id with }
    once := by
      have honce := h.once
      rw [hdeferred] at honce
      exact honce.sublist ((List.sublist_cons_self d rest).filterMap _)
    handles := fun x =>
      { h.handles x with
        serves := fun id p hid => ((h.handles x).serves id p hid).imp fun _ hs => { hs with }
        scheduled := fun e he => (h.handles x).scheduled e (hdeferred ▸ List.mem_cons_of_mem d he)
        waits := by
          intro cur hx
          rcases h.waits x cur hx with hmem | hmem
          · obtain ⟨e, he, hex⟩ := List.mem_filterMap.mp hmem
            rw [hdeferred] at he
            rcases List.mem_cons.mp he with rfl | he
            · exact .inr (List.mem_append_left _ (by rw [hex]; exact List.mem_singleton_self x))
            · exact .inl (List.mem_filterMap.mpr ⟨e, he, hex⟩)
          · exact .inr (List.mem_append_right _ hmem)
        idle := fun hx => List.mem_append_right _ (h.idle x hx) } }

/-- A callback of a request, or one that is scheduled, is for the nameserver. -/
def Mentions (l : DnsLinks) (ns : Nat) : Prop :=
  (∃ id h type, l.owner id = some (h, .probe ns, type)) ∨ ∃ d ∈ l.deferred, d.callback = .probe ns

theorem mentions_schedule (howner : l.owner id = some (some hd, c))
    (h : (l.schedule id hd c err).Mentions ns) :
    l.Mentions ns := by
  rcases h with h | ⟨d, hd', hc⟩
  · exact .inl h
  rcases List.mem_append.mp hd' with hd' | hd'
  · exact .inr ⟨d, hd', hc⟩
  obtain rfl := List.mem_singleton.mp hd'
  obtain ⟨c, type⟩ := c
  obtain rfl : c = .probe ns := hc
  exact .inl ⟨id, some hd, type, howner⟩

theorem mentions_release {search : Bool}
    (h : (l.release id hd p search).Mentions ns) : l.Mentions ns := by
  rcases h with ⟨i, h', type, hi⟩ | h
  · by_cases hid : i = id
    · subst hid
      cases (update_self ..).symm.trans hi
    · exact .inl ⟨i, h', type, (update_of_ne hid _ _).symm.trans hi⟩
  · exact .inr h

/-- A request is made. -/
theorem mentions_update {h' : Option Nat} {l' : DnsLinks}
    (howner : l'.owner = update l.owner id (some (h', c)))
    (hdeferred : l'.deferred = l.deferred) (h : l'.Mentions ns) :
    l.Mentions ns ∨ c.1 = .probe ns := by
  rcases h with ⟨i, x, type, hi⟩ | ⟨d, hd, hc⟩
  · rw [howner] at hi
    by_cases hid : i = id
    · subst hid
      rw [update_self] at hi
      cases hi
      exact .inr rfl
    · rw [update_of_ne hid] at hi
      exact .inl (.inl ⟨i, x, type, hi⟩)
  · exact .inl (.inr ⟨d, hdeferred ▸ hd, hc⟩)

theorem mentions_pop (hdeferred : l.deferred = d :: rest)
    (h : ({ l with deferred := rest } : DnsLinks).Mentions ns) :
    l.Mentions ns :=
  h.imp_right fun ⟨e, he, hc⟩ => ⟨e, hdeferred ▸ List.mem_cons_of_mem d he, hc⟩

/-- The handle of the first callback: it has no current request, no other callback is scheduled for
it, and a nameserver that has it as its probe is the one that the callback is for. -/
theorem Ok.first (h : l.Ok {}) (hdeferred : l.deferred = d :: rest) (hd' : d.handle = some hd) :
    l.current hd = some (none, true) ∧ hd ∉ rest.filterMap (·.handle) ∧
      ∀ ns, l.probe ns = some hd → d.callback = .probe ns ∧ d.err ≠ .cancel := by
  have hmem : d ∈ l.deferred := hdeferred ▸ List.mem_cons_self
  obtain ⟨cur, hcur⟩ := h.scheduled d hmem hd hd'
  have hnone : cur = none := by
    cases cur with
    | none => rfl
    | some id =>
      obtain ⟨hclosing, -⟩ := (h.pending hd id).mp hcur
      exact absurd hclosing List.not_mem_nil
  have honce := h.once
  rw [hdeferred, List.filterMap_cons, hd'] at honce
  exact ⟨hnone ▸ hcur, (List.nodup_cons.mp honce).1, fun ns hns =>
    (h.probe ns List.not_mem_nil hd hns).2.2 d hmem hd'⟩

end DnsLinks

end Libevent
