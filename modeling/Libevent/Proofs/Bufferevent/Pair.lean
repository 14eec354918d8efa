import Libevent.Bufferevent.Pair

/-!
# `Libevent.Proofs.Bufferevent.Pair`: flushing a pair

`be_pair_transfer` looks at `ignore_wm` only when the input of the receiver is at its high
watermark. Below it, a flush moves what fits and leaves the rest in the output, and `be_pair_flush`
reports the end of file all the same. `bePairFlush_delivers_iff`: a flush delivers everything first
exactly when everything fits, or nothing does.
-/

namespace Libevent

theorem buffereventTriggerNolock_data (bev : PairEnd) (d : Dir) :
    (buffereventTriggerNolock bev d).input = bev.input ∧
      (buffereventTriggerNolock bev d).output = bev.output := by
  cases d <;> simp only [buffereventTriggerNolock] <;> split <;> exact ⟨rfl, rfl⟩

/-- A trigger for reading reports nothing but the read callback. -/
theorem buffereventTriggerNolock_read (bev : PairEnd) : ∃ told,
    (buffereventTriggerNolock bev .read).reports = bev.reports ++ told ∧
      ∀ r ∈ told, r.1 = Report.readcb := by
  by_cases hlow : bev.wmReadLow ≤ bev.input.length
  · exact ⟨[(.readcb, bev.input)], by simp [buffereventTriggerNolock, hlow, PairEnd.report],
      by simp⟩
  · exact ⟨[], by simp [buffereventTriggerNolock, hlow], by simp⟩

/-- The input of the receiver is at its high watermark, or the output fits below it. -/
def FlushFits (bev partner : PairEnd) : Prop :=
  partner.wmReadHigh ≤ partner.input.length ∨
    partner.input.length + bev.output.length ≤ partner.wmReadHigh
  deriving Decidable

/-- A transfer that ignores the watermark and fits moves everything. -/
theorem bePairTransfer_fits {src dst : PairEnd} (hfits : FlushFits src dst) :
    (bePairTransfer src dst true).1.output = [] ∧
      (bePairTransfer src dst true).2.input = dst.input ++ src.output ∧
      ∃ told, (bePairTransfer src dst true).2.reports = dst.reports ++ told ∧
        ∀ r ∈ told, r.1 = Report.readcb := by
  have hroom : src.output.length ≤ if dst.wmReadHigh ≠ 0 ∧ dst.input.length < dst.wmReadHigh then
      dst.wmReadHigh - dst.input.length else src.output.length := by
    split
    · rcases hfits with hfull | hfits <;> omega
    · exact Nat.le_refl _
  simp only [bePairTransfer, Bool.true_eq_false, and_false, if_false, evbufferRemoveBuffer,
    List.drop_of_length_le hroom, List.take_of_length_le hroom, buffereventTriggerNolock_data]
  exact ⟨trivial, trivial, buffereventTriggerNolock_read _⟩

/-- A transfer that does not fit leaves something behind. -/
theorem bePairTransfer_rest {src dst : PairEnd} (hfits : ¬FlushFits src dst) :
    (bePairTransfer src dst true).1.output ≠ [] := by
  have hbelow : dst.input.length < dst.wmReadHigh :=
    Nat.lt_of_not_le fun h => hfits (.inl h)
  have hlong : dst.wmReadHigh < dst.input.length + src.output.length :=
    Nat.lt_of_not_le fun h => hfits (.inr h)
  have hhigh : dst.wmReadHigh ≠ 0 ∧ dst.input.length < dst.wmReadHigh := ⟨by omega, hbelow⟩
  simp only [bePairTransfer, Bool.true_eq_false, and_false, if_false, evbufferRemoveBuffer,
    if_pos hhigh, buffereventTriggerNolock_data, ne_eq, List.drop_eq_nil_iff]
  omega

/-- Flushing an end for writing. -/
theorem bePairFlush_write (bev partner : PairEnd) {mode : FlushMode} (hmode : mode ≠ .normal) :
    bePairFlush bev (some partner) (IoMask.only .write) mode =
      (0, (bePairTransfer bev partner true).1, some (if mode = .finished then
        (bePairTransfer bev partner true).2.report (.eof true false)
        else (bePairTransfer bev partner true).2)) := by
  simp [bePairFlush, hmode, IoMask.only]

/-- Flushing an end for writing leaves its output empty and all its bytes at the end of the
partner's input, with the end of file reported last and all of them there, if and only if
`FlushFits`. -/
theorem bePairFlush_delivers_iff (bev partner : PairEnd) (mode : FlushMode)
    (hmode : mode ≠ .normal) :
    (∃ bev' partner',
      bePairFlush bev (some partner) (IoMask.only .write) mode = (0, bev', some partner') ∧
      bev'.output = [] ∧
      partner'.input = partner.input ++ bev.output ∧
      ∃ told, (∀ r ∈ told, r.1 = Report.readcb) ∧
        partner'.reports = partner.reports ++ told ++ if mode = .finished then
          [(.eof true false, partner.input ++ bev.output)] else []) ↔
    FlushFits bev partner := by
  rw [bePairFlush_write bev partner hmode]
  constructor
  · rintro ⟨bev', partner', ⟨⟩, hempty, -⟩
    exact not_not.mp fun hfits => bePairTransfer_rest hfits hempty
  intro hfits
  obtain ⟨hsrc, hdst, told, htold, hread⟩ := bePairTransfer_fits hfits
  refine ⟨_, _, rfl, hsrc, ?_, told, hread, ?_⟩
  · split
    · exact hdst
    · exact hdst
  · split
    · simp [PairEnd.report, htold, hdst]
    · simp [htold]

/-- A full input, over which a flush goes. -/
theorem bePairFlush_delivers_full : ∃ bev' partner',
    bePairFlush { output := [2, 3] } (some { input := [1], wmReadHigh := 1 })
        (IoMask.only .write) .finished = (0, bev', some partner') ∧
      partner'.input = [1, 2, 3] := by
  obtain ⟨bev', partner', hflush, -, hin, -⟩ := (bePairFlush_delivers_iff { output := [2, 3] }
    { input := [1], wmReadHigh := 1 } .finished (by decide)).mpr (by decide)
  exact ⟨bev', partner', hflush, hin⟩

/-- Two bytes for an input with room for one: the second stays behind, and the end of file is
reported after the first. -/
theorem bePairFlush_leaves_rest :
    bePairFlush { output := [1, 2] } (some { wmReadHigh := 1 }) (IoMask.only .write) .finished =
      (0, { output := [2] }, some { input := [1], wmReadHigh := 1, reports :=
        [(.readcb, [1]), (.eof true false, [1])] }) := by
  rfl

end Libevent
