import Libevent.Dns.Getaddrinfo
import Libevent.Lib.Outcome

/-!
# `Libevent.Proofs.Dns.Getaddrinfo`: one answer for each call

`getaddrinfo_answers_once`: every call is answered once, whatever happens. The invariant is
`GetaddrinfoInv`. While the request lives, its pointers `r`
are the sub-requests that have not reported, and there is at least one. The user has been answered
when `user_cb` is `NULL`; then, and while the timer is pending, only one sub-request is outstanding.
That is why the assertion of `evdns_getaddrinfo_timeout_cb` holds, and why every path of
`evdns_getaddrinfo_gotresolve` on which the other pointer is `NULL` may free the request.

`gotresolve_first` and `gotresolve_last` say what the callback does when the other sub-request is
still outstanding, and when it is not.
-/

namespace Libevent

open Lib Function

/-- The callback of the handle has still to run. -/
def HandleState.outstanding : HandleState → Bool
  | .working => true
  | .scheduled _ => true
  | .absent => false
  | .freed => false

theorem Family.other_ne (f : Family) : f.other ≠ f := by cases f <;> decide

/-- Every family is `f` or the other one. -/
theorem Family.eq_or_other (f g : Family) : g = f ∨ g = f.other := by
  cases f <;> cases g <;> simp [Family.other]

/-- What holds while the request lives. -/
structure LiveRequest (w : GetaddrinfoWorld) (data : GetaddrinfoRequest) : Prop where
  frees : w.frees = 0
  pointer : ∀ f, data.r f = (w.handle f).outstanding
  outstanding : ∃ f, data.r f = true
  answers : w.answers.length = if data.userCb then 0 else 1
  answered : data.userCb = false → ∃ f, data.r f = false
  timer : w.timeout = true → data.userCb = true ∧ ∃ f, data.r f = false
  /-- A sub-request is canceled by the user, or after the user has been answered. -/
  canceled : ∀ f sub, w.handle f = .scheduled sub → sub.result = .cancel →
    data.userCanceled = true ∨ data.userCb = false
  notDone : data.requestDone = false

/-- What holds when it has been freed. -/
structure FreedRequest (w : GetaddrinfoWorld) : Prop where
  reported : ∀ f, (w.handle f).outstanding = false
  frees : w.frees = 1
  answers : w.answers.length = 1
  timer : w.timeout = false

/-- The invariant. -/
def GetaddrinfoInv (w : GetaddrinfoWorld) : Prop :=
  match w.data with
  | some data => LiveRequest w data
  | none => FreedRequest w

/-! ### The pieces -/

variable {data : GetaddrinfoRequest}

theorem callUser_ok (h : data.userCb = true) (answer : Answer) (w : GetaddrinfoWorld) :
    callUser data answer w = .ok { w with answers := w.answers ++ [answer] } := by
  rw [callUser, if_pos h]

variable {w : GetaddrinfoWorld}

theorem freeGetaddrinfoRequest_ok (h : w.data = some data) : freeGetaddrinfoRequest w =
      .ok { w with data := none, timeout := false, frees := w.frees + 1 } := by
  rw [freeGetaddrinfoRequest, h]

/-- The answer to the user, and the end of the request. -/
theorem answer_and_free (hdata : w.data = some data) (hcb : data.userCb = true) (answer : Answer) :
    (callUser data answer w >>= freeGetaddrinfoRequest) = .ok { w with
        data := none, timeout := false
        frees := w.frees + 1, answers := w.answers ++ [answer] } := by
  rw [callUser_ok hcb]
  exact freeGetaddrinfoRequest_ok hdata

/-- Canceling an outstanding sub-request leaves it outstanding. -/
theorem evdnsCancelRequest_ok {f : Family} (h : (w.handle f).outstanding = true) :
    ∃ state, evdnsCancelRequest w f = .ok { w with handle := update w.handle f state } ∧
      state.outstanding = true := by
  unfold evdnsCancelRequest
  cases hf : w.handle f with
  | working => exact ⟨.scheduled ⟨.cancel, []⟩, rfl, rfl⟩
  | scheduled sub =>
    have hsame : update w.handle f (.scheduled sub) = w.handle := by
      rw [← hf, update_eq_self]
    exact ⟨.scheduled sub, by rw [hsame], rfl⟩
  | absent =>
    rw [hf] at h
    cases h
  | freed =>
    rw [hf] at h
    cases h

/-- The pointers of the request are to handles that are outstanding, so that canceling them changes
no more than the handles, and leaves outstanding what was. -/
theorem cancelIfSet_ok (w : GetaddrinfoWorld) (data : GetaddrinfoRequest)
    (h : ∀ f, data.r f = (w.handle f).outstanding) (f : Family) :
    ∃ handle, cancelIfSet data f w = .ok { w with handle := handle } ∧
      ∀ g, data.r g = (handle g).outstanding := by
  unfold cancelIfSet
  split
  · next hf =>
    obtain ⟨state, heq, hstate⟩ := evdnsCancelRequest_ok ((h f).symm.trans hf)
    refine ⟨_, heq, fun g => ?_⟩
    by_cases hg : g = f
    · subst hg
      rw [update_self, hstate, hf]
    · rw [update_of_ne hg, h g]
  · exact ⟨w.handle, rfl, h⟩

/-! ### A sub-request reports -/

section
variable {w : GetaddrinfoWorld} {data : GetaddrinfoRequest} {req : Family} {sub : SubResult}

/-- The first sub-request to report leaves the request to the other one. -/
theorem gotresolve_first (hdata : w.data = some data) (hother : data.r req.other = true)
    (hcb : data.userCb = true) (hcanceled : sub.result = .cancel → data.userCanceled = true)
    (hdone : data.requestDone = false) :
    ∃ data' timeout, evdnsGetaddrinfoGotresolve w req sub true =
        .ok { w with data := some data', timeout := timeout } ∧
      data'.r = update data.r req false ∧ data'.userCb = true ∧
      data'.userCanceled = data.userCanceled ∧ data'.requestDone = false := by
  have hr : update data.r req false req.other = true := by
    rw [update_of_ne req.other_ne, hother]
  have hcancel : ¬ (sub.result = .cancel ∧ (!data.userCanceled) = true) := by
    rintro ⟨hresult, hnot⟩
    rw [hcanceled hresult] at hnot
    cases hnot
  unfold evdnsGetaddrinfoGotresolve
  simp only [hdata, if_neg hcancel, hcb, Bool.not_true, Bool.false_eq_true, if_false]
  split
  · -- the error is kept until the other sub-request reports
    simp only [gotresolveError, hr]
    exact ⟨_, _, rfl, rfl, rfl, rfl, by simp [hother, hdone]⟩
  · split
    · exact ⟨_, _, rfl, rfl, rfl, rfl, by simp [hother, hdone]⟩
    · simp only [gotresolveAnswer, hr]
      exact ⟨_, _, rfl, rfl, rfl, rfl, by simp [hother, hdone]⟩

/-- The last sub-request to report answers the user, unless that has been done, and frees the
request. -/
theorem gotresolve_last (hdata : w.data = some data) (hother : data.r req.other = false)
    (hcanceled : sub.result = .cancel → data.userCanceled = true ∨ data.userCb = false) :
    ∃ answers, evdnsGetaddrinfoGotresolve w req sub true = .ok { w with
          data := none, timeout := false, frees := w.frees + 1, answers := w.answers ++ answers } ∧
      answers.length = if data.userCb then 1 else 0 := by
  have hr : update data.r req false req.other = false := by
    rw [update_of_ne req.other_ne, hother]
  unfold evdnsGetaddrinfoGotresolve
  simp only [hdata]
  split
  · next hcancel =>
    -- the sub-request was canceled, and not by the user
    have hcb : data.userCb = false := by
      rcases hcanceled hcancel.1 with hcanceled | hcb
      · simp [hcanceled] at hcancel
      · exact hcb
    simp only [hr]
    exact ⟨[], by simp [freeGetaddrinfoRequest], by simp [hcb]⟩
  cases hcb : data.userCb with
  | false => exact ⟨[], by simp [freeGetaddrinfoRequest], by simp⟩
  | true =>
    simp only [Bool.not_true, Bool.false_eq_true, if_false]
    split
    · simp only [gotresolveError, hr]
      exact ⟨[_], answer_and_free rfl rfl _, rfl⟩
    split
    · simp only [hr]
      exact ⟨[_], answer_and_free rfl rfl _, rfl⟩
    · simp only [gotresolveAnswer, hr]
      exact ⟨[_], answer_and_free rfl rfl _, rfl⟩

end

/-- The request lives while a sub-request is outstanding. -/
theorem GetaddrinfoInv.live (h : GetaddrinfoInv w) {f : Family}
    (hf : (w.handle f).outstanding = true) : ∃ data, w.data = some data ∧ LiveRequest w data := by
  rw [GetaddrinfoInv] at h
  split at h
  · next data hdata => exact ⟨data, hdata, h⟩
  · rw [h.reported f] at hf
    cases hf

/-- A scheduled callback runs. -/
theorem callback_inv (h : GetaddrinfoInv w) (f : Family) :
    Yields (fun _ => False) (getaddrinfoStep w (.callback f true)) GetaddrinfoInv := by
  simp only [getaddrinfoStep]
  split
  · next sub hsub =>
    obtain ⟨data, hdata, h⟩ := h.live (f := f) (by rw [hsub]; rfl)
    have hcanceled := h.canceled f sub hsub
    have hself : data.r f = true := by rw [h.pointer f, hsub]; rfl
    cases hother : data.r f.other with
    | true =>
      -- with two sub-requests outstanding, the user has not been answered
      have hcb : data.userCb = true := by
        by_contra hcb
        obtain ⟨g, hg⟩ := h.answered (by simpa using hcb)
        rcases Family.eq_or_other f g with rfl | rfl <;> simp_all
      have huser : sub.result = .cancel → data.userCanceled = true := fun hresult =>
        (hcanceled hresult).resolve_right (by simp [hcb])
      obtain ⟨data', timeout, heq, hr, hcb', hcan, hdone⟩ :=
        gotresolve_first hdata hother hcb huser h.notDone
      rw [heq]
      show LiveRequest _ data'
      have hself' : data'.r f = false := by rw [hr, update_self]
      refine ⟨h.frees, fun g => ?_, ⟨f.other, ?_⟩, ?_, ?_, ?_, ?_, hdone⟩
      · rw [hr]
        by_cases hg : g = f
        · subst hg
          simp [HandleState.outstanding]
        · simp [update_of_ne hg, h.pointer g]
      · rw [hr, update_of_ne f.other_ne, hother]
      · simpa [hcb, hcb'] using h.answers
      · simp [hcb']
      · exact fun _ => ⟨hcb', f, hself'⟩
      intro g s hg hs
      by_cases hgf : g = f
      · subst hgf
        simp at hg
      have hsame : w.handle g = .scheduled s := by
        simpa [update_of_ne hgf] using hg
      rw [hcan, hcb']
      simpa [hcb] using h.canceled g s hsame hs
    | false =>
      obtain ⟨answers, heq, hlen⟩ := gotresolve_last hdata hother hcanceled
      rw [heq]
      show FreedRequest _
      refine ⟨fun g => ?_, by simp [h.frees], ?_, rfl⟩
      · rcases Family.eq_or_other f g with rfl | rfl
        · simp [HandleState.outstanding]
        · simp [update_of_ne f.other_ne, ← h.pointer, hother]
      · simp only [List.length_append, h.answers, hlen]
        split <;> rfl
  · exact h

/-- A sub-request is over. -/
theorem resolved_inv (h : GetaddrinfoInv w) (f : Family) (sub : SubResult)
    (cname : Option Bytes) :
    Yields (fun _ => False) (getaddrinfoStep w (.resolved f sub cname)) GetaddrinfoInv := by
  simp only [getaddrinfoStep]
  split
  · next hworking =>
    obtain ⟨data, hdata, h⟩ := h.live (f := f) (by rw [hworking.1]; rfl)
    rw [hdata]
    show LiveRequest _ _
    refine ⟨h.frees, fun g => ?_, h.outstanding, h.answers, h.answered, h.timer, ?_, h.notDone⟩
    · by_cases hg : g = f
      · subst hg
        simp [HandleState.outstanding, h.pointer g, hworking.1]
      · simp [update_of_ne hg, h.pointer g]
    intro g s hg hs
    by_cases hgf : g = f
    · subst hgf
      obtain rfl : sub = s := by simpa using hg
      exact absurd hs hworking.2.1
    · have hsame : w.handle g = .scheduled s := by
        simpa [update_of_ne hgf] using hg
      exact h.canceled g s hsame hs
  · exact h

/-- The timer cancels the slower sub-request, answers the user and keeps the request. -/
theorem timeoutCb_ok (hdata : w.data = some data)
    (hpointer : ∀ f, data.r f = (w.handle f).outstanding) (hcb : data.userCb = true) {f g : Family}
    (hf : data.r f = true) (hg : data.r g = false) :
    ∃ handle data', evdnsGetaddrinfoTimeoutCb w = .ok { w with
        handle := handle, data := some data', answers := w.answers ++ [timeoutAnswer data] } ∧
      (∀ f, data.r f = (handle f).outstanding) ∧ data'.r = data.r ∧ data'.userCb = false ∧
      data'.requestDone = data.requestDone := by
  have hnotBoth : (data.r .ipv4 && data.r .ipv6) = false := by
    cases g <;> simp [hg]
  have hnotNone : (!data.r .ipv4 && !data.r .ipv6) = false := by
    cases f <;> simp [hf]
  obtain ⟨handle1, heq1, h1⟩ := cancelIfSet_ok w data hpointer .ipv4
  obtain ⟨handle2, heq2, h2⟩ := cancelIfSet_ok { w with handle := handle1 } data h1 .ipv6
  refine ⟨handle2, { data with
    pendingResult := none, userCb := false
    cnameResult := if data.pendingResult.isSome then none else data.cnameResult }, ?_, h2, rfl, rfl,
    rfl⟩
  rw [evdnsGetaddrinfoTimeoutCb, hdata]
  dsimp only
  rw [heq1]
  show (cancelIfSet data .ipv6 { w with handle := handle1 } >>= _) = _
  rw [heq2]
  show (if (data.r .ipv4 && data.r .ipv6) = true then _ else _) = _
  rw [hnotBoth, callUser_ok hcb]
  show (if (!data.r .ipv4 && !data.r .ipv6) = true then _ else _) = _
  rw [hnotNone]
  rfl

/-- The timer runs out. -/
theorem timeout_inv (h : GetaddrinfoInv w) :
    Yields (fun _ => False) (getaddrinfoStep w .timeout) GetaddrinfoInv := by
  simp only [getaddrinfoStep]
  split
  · next htimeout =>
    cases hdata : w.data with
    | none =>
      rw [GetaddrinfoInv, hdata] at h
      exact absurd htimeout (by simp [h.timer])
    | some data =>
      rw [GetaddrinfoInv, hdata] at h
      obtain ⟨hcb, g, hg⟩ := h.timer htimeout
      obtain ⟨f, hf⟩ := h.outstanding
      obtain ⟨handle, data', heq, hpointer, hr, hcb', hdone⟩ :=
        timeoutCb_ok (w := { w with timeout := false }) hdata h.pointer hcb hf hg
      rw [← hdata, heq]
      show LiveRequest _ data'
      refine ⟨h.frees, by rw [hr]; exact hpointer, ⟨f, by rw [hr, hf]⟩, ?_,
        fun _ => ⟨g, by rw [hr, hg]⟩, nofun, fun _ _ _ _ => .inr hcb',
        by rw [hdone, h.notDone]⟩
      simp [h.answers, hcb, hcb']
  · exact h

/-- The user's cancellation cancels what is outstanding, and the timer. -/
theorem cancel_ok (hdata : w.data = some data) (hpointer : ∀ f, data.r f = (w.handle f).outstanding)
    (hdone : data.requestDone = false) :
    ∃ handle, evdnsGetaddrinfoCancel w = .ok { w with
        data := some { data with userCanceled := true }, timeout := false, handle := handle } ∧
      ∀ f, data.r f = (handle f).outstanding := by
  obtain ⟨handle1, heq1, h1⟩ := cancelIfSet_ok
    { w with data := some { data with userCanceled := true }, timeout := false }
    { data with userCanceled := true } hpointer .ipv4
  obtain ⟨handle2, heq2, h2⟩ := cancelIfSet_ok
    { w with data := some { data with userCanceled := true }, timeout := false, handle := handle1 }
    { data with userCanceled := true } h1 .ipv6
  refine ⟨handle2, ?_, h2⟩
  rw [evdnsGetaddrinfoCancel, hdata]
  dsimp only
  rw [if_neg (by rw [hdone]; exact Bool.false_ne_true), heq1]
  exact heq2

/-- The user cancels. -/
theorem cancel_inv (h : GetaddrinfoInv w) :
    Yields (fun _ => False) (getaddrinfoStep w .cancel) GetaddrinfoInv := by
  simp only [getaddrinfoStep]
  split
  · next hanswers =>
    cases hdata : w.data with
    | none =>
      rw [GetaddrinfoInv, hdata] at h
      have hlen := h.answers
      rw [hanswers] at hlen
      cases hlen
    | some data =>
      rw [GetaddrinfoInv, hdata] at h
      obtain ⟨handle, heq, hpointer⟩ := cancel_ok hdata h.pointer h.notDone
      rw [heq]
      show LiveRequest _ _
      exact ⟨h.frees, hpointer, h.outstanding, h.answers, h.answered, nofun,
        fun _ _ _ _ => .inl rfl, h.notDone⟩
  · exact h

/-! ### Every sequence of actions -/

theorem evdnsGetaddrinfo_inv (indecisive : Bool) (launched : Family → Bool) :
    GetaddrinfoInv (evdnsGetaddrinfo indecisive launched) := by
  unfold evdnsGetaddrinfo
  split
  · next hsome =>
    show LiveRequest _ _
    refine ⟨rfl, fun f => ?_, ?_, rfl, nofun, nofun, fun f sub hsub => ?_, rfl⟩
    · cases hf : launched f <;> simp [hf, HandleState.outstanding]
    · rcases Bool.or_eq_true_iff.mp hsome with h4 | h6
      · exact ⟨.ipv4, h4⟩
      · exact ⟨.ipv6, h6⟩
    · dsimp only at hsub
      split at hsub <;> cases hsub
  · show FreedRequest _
    exact ⟨fun _ => rfl, rfl, rfl, rfl⟩

theorem getaddrinfoStep_inv (w : GetaddrinfoWorld) (action : GetaddrinfoAction)
    (h : GetaddrinfoInv w) (halloc : action.Allocates) :
    Yields (fun _ => False) (getaddrinfoStep w action) GetaddrinfoInv := by
  cases action with
  | resolved f sub cname => exact resolved_inv h f sub cname
  | callback f alloc =>
    obtain rfl : alloc = true := halloc
    exact callback_inv h f
  | timeout => exact timeout_inv h
  | cancel => exact cancel_inv h

/-- The invariant after every sequence of actions whose allocations succeed. -/
theorem getaddrinfoRun_inv (indecisive : Bool) (launched : Family → Bool)
    {actions : List GetaddrinfoAction} (halloc : ∀ action ∈ actions, action.Allocates) :
    Yields (fun _ => False) (getaddrinfoRun indecisive launched actions) GetaddrinfoInv :=
  Yields.run getaddrinfoStep_inv (evdnsGetaddrinfo_inv indecisive launched)
    (meets_of_forall _ halloc)

/-- The sub-request has reported, or was never launched. -/
def HandleState.Reported (h : HandleState) : Prop := h = .absent ∨ h = .freed

theorem HandleState.reported_iff (h : HandleState) : h.Reported ↔ h.outstanding = false := by
  cases h <;> simp [Reported, outstanding]

/-- **`evdns_getaddrinfo` answers exactly once.** No sequence of actions ends in a use of the
request after it is freed, a call of a callback that is `NULL`, or a failed assertion. The user's
callback is invoked at most once, and exactly once when both sub-requests have reported; that is
also when the request is freed, once. -/
theorem getaddrinfo_answers_once (indecisive : Bool) (launched : Family → Bool)
    {actions : List GetaddrinfoAction} (halloc : ∀ action ∈ actions, action.Allocates) :
    ∃ w, getaddrinfoRun indecisive launched actions = .ok w ∧ w.answers.length ≤ 1 ∧ w.frees ≤ 1 ∧
      ((∀ f, (w.handle f).Reported) → w.answers.length = 1) ∧
      (w.frees = 1 ↔ ∀ f, (w.handle f).Reported) := by
  have hinv := getaddrinfoRun_inv indecisive launched halloc
  cases hrun : getaddrinfoRun indecisive launched actions with
  | error e =>
    rw [hrun] at hinv
    exact hinv.elim
  | ok w =>
    rw [hrun] at hinv
    refine ⟨w, rfl, ?_⟩
    simp only [HandleState.reported_iff]
    cases hdata : w.data with
    | none =>
      have h : FreedRequest w := by simpa [GetaddrinfoInv, hdata] using hinv
      exact ⟨h.answers.le, h.frees.le, fun _ => h.answers, fun _ => h.reported, fun _ => h.frees⟩
    | some data =>
      have h : LiveRequest w data := by simpa [GetaddrinfoInv, hdata] using hinv
      obtain ⟨f, hf⟩ := h.outstanding
      -- one of the sub-requests has still to report
      have hnot : ¬ ∀ f, (w.handle f).outstanding = false := fun hall => by
        rw [h.pointer f, hall f] at hf
        cases hf
      refine ⟨?_, by rw [h.frees]; exact Nat.zero_le 1, fun hall => absurd hall hnot, ?_,
        fun hall => absurd hall hnot⟩
      · rw [h.answers]
        split <;> decide
      · intro hfrees
        cases h.frees.symm.trans hfrees

/-- The user cancels when the answer to one sub-request is scheduled already. -/
theorem getaddrinfo_answers_once_canceled :
    ∃ w, getaddrinfoRun true (fun _ => true) [.resolved .ipv4 ⟨.none, [[127, 0, 0, 1]]⟩ none,
      .cancel,
        .callback .ipv4 true, .callback .ipv6 true] = .ok w ∧
      w.answers.length ≤ 1 ∧ w.frees ≤ 1 ∧
      ((∀ f, (w.handle f).Reported) → w.answers.length = 1) ∧
      (w.frees = 1 ↔ ∀ f, (w.handle f).Reported) :=
  getaddrinfo_answers_once _ _ (by simp [GetaddrinfoAction.Allocates])

end Libevent
