import Libevent.Proofs.Bufferevent.Wakeup

/-!
# `Libevent.Proofs.Bufferevent.Reports`: what the callbacks report

`Justified d env o`: the callback of direction `d` reported end of file only when a read that was
asked for at least one byte returned 0, and an error only when a system call that was asked for at
least one byte failed with an error that is not retriable.

`readcb_writecb_justified`: the reports are justified exactly when the conditions `SpuriousRead` and
`SpuriousWrite` on the state before the call and on the environment do not hold.
`spurious_eof`: a member of a group whose share is 0 reads 0 bytes and reports end of file, and so
does a bufferevent whose `sendfile` would block.
-/

namespace Libevent

open Lib

/-- Whether what is reported has a reason. -/
def Justified (d : Dir) (env : IoEnv) (o : IoOutcome) : Prop :=
  (o.what = some .eof → d = .read ∧ env.result = .ok 0 ∧ ∃ n, o.asked = some (n + 1)) ∧
  (o.what = some .error →
    (∃ e, env.result = .fail e ∧ e ≠ .retriable) ∧ ∃ n, o.asked = some (n + 1))

/-! ### Reading -/

/-- What `bufferevent_readcb` passes to `evbuffer_read`, as an `ev_ssize_t`. -/
def readAllowance (bev : Bufferevent) (readmax : Int) : Int :=
  let howmuch := if bev.wmReadHigh ≠ 0 then ssizeOf (bev.wmReadHigh - bev.input) else -1
  if howmuch < 0 ∨ howmuch > readmax then readmax else howmuch

/-- Reading goes as far as `evbuffer_read`, which then runs out of memory, or is told to read a
multiple of `2 ^ 32` bytes, 0 among them. -/
def SpuriousRead (s : BevSystem) (b : BevId) (env : IoEnv) : Prop :=
  env.timeout = false ∧
  ¬((s.bevs b).wmReadHigh ≠ 0 ∧ ssizeOf ((s.bevs b).wmReadHigh - (s.bevs b).input) ≤ 0) ∧
  ∃ readmax bev, buffereventGetReadMax s.now s.groups (s.bevs b) = .ok (readmax, bev) ∧
    bev.suspended .read = ∅ ∧
    ((env.expands = false ∧ env.errno = .other) ∨
      (env.expands = true ∧ (2 ^ 32 : Int) ∣ readAllowance (s.bevs b) readmax ∧
        (env.result = .ok 0 ∨ env.result = .fail .other)))

theorem intOfSsize_eq_zero_iff (n : Int) : intOfSsize n = 0 ↔ (2 ^ 32 : Int) ∣ n := by
  exact (Int.dvd_iff_bmod_eq_zero).symm

/-- `evbuffer_read` asks for nothing exactly when it is told to. -/
theorem evbufferReadSome_asked (howmuch : Int) (env : IoEnv) (hexpands : env.expands = true) :
    ∃ n, (evbufferReadSome howmuch env).asked = some n ∧ (n = 0 ↔ howmuch = 0) ∧
      (evbufferReadSome howmuch env).res = (match env.result with
        | .ok k => some k
        | .fail _ => none) ∧
      (∀ e, env.result = .fail e → (evbufferReadSome howmuch env).errno = e) := by
  unfold evbufferReadSome
  simp only [hexpands]
  have hpos : 0 < if env.readable ≤ 0 ∨ env.readable > EVBUFFER_MAX_READ then EVBUFFER_MAX_READ
      else env.readable.toNat := by
    split
    · exact Nat.succ_pos _
    · omega
  generalize (if env.readable ≤ 0 ∨ env.readable > EVBUFFER_MAX_READ then EVBUFFER_MAX_READ
    else env.readable.toNat) = n at hpos ⊢
  have hasked : (if howmuch < 0 ∨ howmuch > n then n else howmuch.toNat) = 0 ↔ howmuch = 0 := by
    split <;> omega
  cases env.result with
  | ok k => exact ⟨_, rfl, hasked, rfl, fun e he => by cases he⟩
  | fail e => exact ⟨_, rfl, hasked, rfl, fun e' he => by cases he; rfl⟩

/-- What `bufferevent_readcb` reports once `evbuffer_read` returned. -/
theorem justified_readcbFinish (s : BevSystem) (b : BevId) (bev : Bufferevent) (env : IoEnv)
    (howmuch : Int) :
    Justified .read env (readcbFinish s b bev env (evbufferReadSome (intOfSsize howmuch) env)).1 ↔
      ¬((env.expands = false ∧ env.errno = .other) ∨
        (env.expands = true ∧ (2 ^ 32 : Int) ∣ howmuch ∧
          (env.result = .ok 0 ∨ env.result = .fail .other))) := by
  rw [← intOfSsize_eq_zero_iff]
  generalize intOfSsize howmuch = howmuch
  cases hexpands : env.expands with
  | false =>
    have hr : evbufferReadSome howmuch env = ⟨none, env.errno, none⟩ := by
      unfold evbufferReadSome
      simp [hexpands]
    rw [hr]
    cases herrno : env.errno <;> simp [readcbFinish, readcbError, Justified]
  | true =>
    obtain ⟨n, hn, hzero, hres, herrno⟩ := evbufferReadSome_asked howmuch env hexpands
    generalize evbufferReadSome howmuch env = r at hn hres herrno ⊢
    obtain ⟨res, errno, asked⟩ := r
    obtain rfl : asked = some n := hn
    rw [← hzero]
    cases hresult : env.result with
    | ok k =>
      rw [hresult] at hres
      obtain rfl : res = some k := hres
      cases k with
      | zero => cases n <;> simp [readcbFinish, readcbError, Justified, hresult]
      | succ k => simp [readcbFinish, Justified]
    | fail e =>
      rw [hresult] at hres
      obtain rfl : res = none := hres
      obtain rfl : errno = e := herrno e hresult
      cases errno <;> cases n <;> simp [readcbFinish, readcbError, Justified, hresult]

/-- The reports of `bufferevent_readcb`. -/
theorem readcb_justified (s : BevSystem) (b : BevId) (env : IoEnv) :
    Partly (buffereventReadcb s b env) fun r =>
      Justified .read env r.1 ↔ ¬SpuriousRead s b env := by
  unfold buffereventReadcb SpuriousRead
  dsimp only
  split
  · next htimeout => simp [readcbError, Justified, htimeout]
  next htimeout =>
  split
  · next hroom => simp [Justified, hroom]
  next hroom =>
  cases hmax : buffereventGetReadMax s.now s.groups (s.bevs b) with
  | error e => exact trivial
  | ok r =>
    obtain ⟨readmax, bev⟩ := r
    show Yields _ (if bev.suspended .read ≠ ∅ then _ else _) _
    split
    · next hsuspended =>
      refine iff_of_true (by simp [Justified]) ?_
      rintro ⟨_, _, readmax', bev', heq, hnone, _⟩
      cases heq
      exact hsuspended hnone
    next hsuspended =>
    rw [yields_pure, justified_readcbFinish, not_iff_not]
    have hnone : bev.suspended .read = ∅ := not_not.mp hsuspended
    constructor
    · exact fun h => ⟨by simpa using htimeout, hroom, readmax, bev, rfl, hnone, h⟩
    rintro ⟨_, _, readmax', bev', heq, _, h⟩
    cases heq
    exact h

/-! ### Writing -/

/-- How much `evbuffer_write_atmost` writes at most. -/
def writeAllowance (output : List OutChain) (atmost : Int) : Nat :=
  if atmost < 0 ∨ atmost > outLen output then outLen output else atmost.toNat

/-- Whether the first chain is sent by `sendfile`. -/
def sendsFile : List OutChain → Bool
  | [] => false
  | chain :: _ => chain.sendfile

/-- How many bytes are in what is given to the system call: the whole first chain, when it is sent
by `sendfile`, or the vectors up to such a chain. -/
def writeLength (output : List OutChain) (howmuch : Nat) : Nat :=
  match output with
  | [] => 0
  | chain :: l =>
    if chain.sendfile then chain.off else (iovecLoop 0 howmuch (chain :: l)).2

/-- Writing goes as far as `evbuffer_write_atmost`. The allowance is 0 and `errno` is something
else; or the system call returns 0, or `sendfile` would block, or the call fails when only empty
chains were given to it. -/
def SpuriousWrite (s : BevSystem) (b : BevId) (env : IoEnv) : Prop :=
  env.timeout = false ∧
  ∃ atmost bev, buffereventGetWriteMax s.now s.groups (s.bevs b) = .ok (atmost, bev) ∧
    bev.suspended .write = ∅ ∧ outLen bev.output ≠ 0 ∧
    ((atmost = 0 ∧ env.errno ≠ .retriable) ∨ (atmost ≠ 0 ∧ (env.result = .ok 0 ∨
        (sendsFile bev.output = true ∧ env.result = .fail .retriable) ∨
        (writeLength bev.output (writeAllowance bev.output atmost) = 0 ∧
          ∃ e, env.result = .fail e ∧ e ≠ .retriable))))

/-- The loop only adds vectors. -/
theorem le_iovecLoop : ∀ (l : List OutChain) (i howmuch : Nat), i ≤ (iovecLoop i howmuch l).1
  | [], _, _ => le_rfl
  | c :: l, i, howmuch => by
      rw [iovecLoop]
      split
      · split
        · exact (Nat.le_succ i).trans (le_iovecLoop l (i + 1) (howmuch - c.off))
        · exact Nat.le_succ i
      · exact le_rfl

/-- There is a vector, unless the first chain is sent by `sendfile`. -/
theorem iovecLoop_ne_zero {c : OutChain} {l : List OutChain} {howmuch : Nat}
    (hfile : c.sendfile = false) (hpos : 0 < howmuch) : (iovecLoop 0 howmuch (c :: l)).1 ≠ 0 := by
  rw [iovecLoop, if_pos ⟨by decide, by omega, hfile⟩]
  split
  · exact Nat.one_le_iff_ne_zero.mp (le_iovecLoop l 1 (howmuch - c.off))
  · exact Nat.one_ne_zero

variable {output : List OutChain}

/-- What `evbuffer_write_atmost` returns when there is something to write. -/
theorem evbufferWriteAtmost_eq {atmost : Int} (env : IoEnv) (hout : outLen output ≠ 0)
    (hatmost : atmost ≠ 0) :
    ∃ errno, (∀ e, env.result = .fail e → errno = e) ∧ evbufferWriteAtmost output atmost env =
      ⟨match env.result with
        | .ok k => some k
        | .fail e => if sendsFile output = true ∧ e = .retriable then some 0 else none,
        errno, some (writeLength output (writeAllowance output atmost))⟩ := by
  have hpos : writeAllowance output atmost > 0 := by
    unfold writeAllowance
    split <;> omega
  cases output with
  | nil => exact absurd rfl hout
  | cons c l =>
    simp only [evbufferWriteAtmost, ← writeAllowance.eq_1, if_pos hpos]
    cases hfile : c.sendfile with
    | true =>
      simp only [evbufferWriteSendfile, writeLength, sendsFile, hfile]
      cases hresult : env.result with
      | ok k => exact ⟨env.errno, by rintro _ ⟨⟩, rfl⟩
      | fail e =>
        cases e
        · exact ⟨_, fun e he => by cases he; rfl, by simp⟩
        · exact ⟨_, fun e he => by cases he; rfl, by simp⟩
        · exact ⟨_, fun e he => by cases he; rfl, by simp⟩
    | false =>
      have hvec := iovecLoop_ne_zero (l := l) hfile hpos
      simp only [evbufferWriteIovec, writeLength, sendsFile, hfile, hvec]
      cases hresult : env.result with
      | ok k => exact ⟨env.errno, by rintro _ ⟨⟩, rfl⟩
      | fail e => exact ⟨e, fun e' he => by cases he; rfl, by simp⟩

/-- What `bufferevent_writecb` reports once `evbuffer_write_atmost` returned. -/
theorem justified_writecbFinish (s : BevSystem) (b : BevId) (bev : Bufferevent) (env : IoEnv)
    (hout : outLen output ≠ 0) (atmost : Int) :
    Justified .write env (writecbFinish s b bev env (evbufferWriteAtmost output atmost env)).1 ↔
      ¬((atmost = 0 ∧ env.errno ≠ .retriable) ∨ (atmost ≠ 0 ∧ (env.result = .ok 0 ∨
          (sendsFile output = true ∧ env.result = .fail .retriable) ∨
          (writeLength output (writeAllowance output atmost) = 0 ∧
            ∃ e, env.result = .fail e ∧ e ≠ .retriable)))) := by
  by_cases hatmost : atmost = 0
  · subst hatmost
    have hr : evbufferWriteAtmost output 0 env = ⟨none, env.errno, none⟩ := by
      unfold evbufferWriteAtmost
      simp
    rw [hr]
    cases herrno : env.errno <;> simp [writecbFinish, writecbError, Justified]
  obtain ⟨errno, herrno, heq⟩ := evbufferWriteAtmost_eq env hout hatmost
  rw [heq]
  generalize writeLength output (writeAllowance output atmost) = n
  cases hresult : env.result with
  | ok k =>
    cases k with
    | zero => simp [writecbFinish, writecbError, Justified, hatmost]
    | succ k => simp [writecbFinish, Justified, hatmost]
  | fail e =>
    obtain rfl := herrno e hresult
    cases hfile : sendsFile output <;> cases errno <;> cases n <;>
      simp [writecbFinish, writecbError, Justified, hatmost, hresult]

/-- The reports of `bufferevent_writecb`. -/
theorem writecb_justified (s : BevSystem) (b : BevId) (env : IoEnv) :
    Partly (buffereventWritecb s b env) fun r =>
      Justified .write env r.1 ↔ ¬SpuriousWrite s b env := by
  unfold buffereventWritecb SpuriousWrite
  dsimp only
  split
  · next htimeout => simp [writecbError, Justified, htimeout]
  next htimeout =>
  cases hmax : buffereventGetWriteMax s.now s.groups (s.bevs b) with
  | error e => exact trivial
  | ok r =>
    obtain ⟨atmost, bev⟩ := r
    show Yields _ (if bev.suspended .write ≠ ∅ then _ else _) _
    split
    · next hsuspended =>
      refine iff_of_true (by simp [Justified]) ?_
      rintro ⟨_, atmost', bev', heq, hnone, _⟩
      cases heq
      exact hsuspended hnone
    next hsuspended =>
    have hnone : bev.suspended .write = ∅ := not_not.mp hsuspended
    split
    · next hout =>
      rw [yields_pure, justified_writecbFinish _ _ _ _ hout, not_iff_not]
      constructor
      · exact fun h => ⟨by simpa using htimeout, atmost, bev, rfl, hnone, hout, h⟩
      rintro ⟨_, atmost', bev', heq, _, _, h⟩
      cases heq
      exact h
    · next hout =>
      refine iff_of_true (by simp [Justified]) ?_
      rintro ⟨_, atmost', bev', heq, _, hout', _⟩
      cases heq
      exact hout hout'

/-! ### Both callbacks -/

/-- For every system, bufferevent and environment, `bufferevent_readcb` and `bufferevent_writecb`
report end of file or an error without a reason exactly in the cases listed. -/
theorem readcb_writecb_justified (s : BevSystem) (b : BevId) (env : IoEnv) :
    Yields (fun _ => True) (buffereventReadcb s b env)
      (fun r => Justified .read env r.1 ↔ ¬SpuriousRead s b env) ∧
    Yields (fun _ => True) (buffereventWritecb s b env)
      (fun r => Justified .write env r.1 ↔ ¬SpuriousWrite s b env) :=
  ⟨readcb_justified s b env, writecb_justified s b env⟩

/-- A group of rate 1 with no minimal share and the two members 0 and 1: the share of each is 0, and
a member reads nothing and reports end of file. Bufferevent 2 is in no group and sends a file: when
`sendfile` would block, it reports end of file. -/
theorem spurious_eof : ∃ grp s, buffereventRateLimitGroupNew 0 slowCfg = .ok grp ∧
    run bevStep { groups := fun _ => grp }
      [.setMinShare 0 0, .joinGroup 0 0, .joinGroup 1 0, .enable 0 (IoMask.only .read),
        .addOutput 2 [⟨5, true⟩]] = .ok s ∧
    (buffereventReadcb s 0 { result := .ok 0 }).map Prod.fst =
      .ok { what := some .eof, asked := some 0 } ∧
    (buffereventWritecb s 2 { result := .fail .retriable }).map Prod.fst =
      .ok { what := some .eof, asked := some 5 } ∧
    ¬Justified .read { result := .ok 0 } { what := some .eof, asked := some 0 } ∧
    ¬Justified .write { result := .fail .retriable } { what := some .eof, asked := some 5 } := by
  refine ⟨_, _, rfl, rfl, rfl, rfl, fun h => ?_, fun h => ?_⟩
  · obtain ⟨_, _, n, hn⟩ := h.1 rfl
    cases hn
  · cases (h.1 rfl).1

end Libevent
