import PaneRelay.Proofs.Batcher.Widths
import PaneRelay.Proofs.Config.Text

/-! # Settings at the end of their range

A configuration may set any tunable to any word of its width. Most of them are only compared or
waited for. Three kinds are counted up to, or multiplied: the restarts that are allowed, the size of
a full buffer, and the times that double.

* `words_suffice_iff`: times never get out of bounds; failures are counted right but for the very
  last number of restarts, and flushes are right but for sizes of 2⁶² and more.
* `words_run_out`, `numbers_run_out`: a size and a number with which they are not. What happens then
  depends on whether an overflow is noticed. Of a flush it is said where it is, for otherwise the
  chunks are right (`flushes_some`); of the count where it is not, for there the loop goes on. -/

namespace PaneRelay.Config

open PaneRelay.Supervisor PaneRelay.Batcher

/-- Whether so many milliseconds are a duration: its whole seconds are a word of 64 bits. -/
def IsDuration (ms : Nat) : Prop := ms / 1000 < 2 ^ 64

instance (ms : Nat) : Decidable (IsDuration ms) := inferInstanceAs (Decidable (_ < _))

/-- A time that is set can be doubled. -/
theorem isDuration_double {ms bound : Nat} (h : ms ≤ bound) (hbound : bound < 2 ^ 64) :
    IsDuration (ms * 2) := by
  unfold IsDuration
  omega

theorem maxBackoff_lt (s : SupervisorSection) : (RestartPolicy.ofSection s).maxBackoff < 2 ^ 64 :=
  Nat.max_lt.mpr ⟨s.maxBackoff.toNat_lt, s.initialBackoff.toNat_lt⟩

theorem period_bound_lt (s : BatchSection) :
    max (BatchPolicy.ofSection s).interval (BatchPolicy.ofSection s).idleInterval < 2 ^ 64 := by
  have hinterval : max s.interval.toNat 1 < 2 ^ 64 :=
    Nat.max_lt.mpr ⟨s.interval.toNat_lt, by decide⟩
  exact Nat.max_lt.mpr ⟨hinterval, Nat.max_lt.mpr ⟨s.idleInterval.toNat_lt, hinterval⟩⟩

/-- **Where words suffice.** A configuration, each of which is the meaning of a text, with all its
tunables anywhere in their range. On every run of a supervised loop each failure can be counted, and
the numbers that are reported are the true ones, of all failures as long as the loop goes on, just
if some number of restarts is not allowed, or every failure counts alone. On every run of a batcher
flushes in memory take what they should, just if a full buffer is smaller than 2⁶² bytes. Pauses and
ticks stay within their limits on all runs, and their doubles are durations. -/
theorem words_suffice_iff (c : StreamConfig) (name : String) :
    let q := BatchPolicy.ofSection c.batch
    let r := RestartPolicy.ofSection c.supervisor
    StreamConfig.parse c.text = .ok c ∧
    ((∀ moves w, (Watch.fresh r).played r name moves = some w →
        (numbers w.loop.events <+: w.tallies r ∧
          (w.isOver = false → numbers w.loop.events = w.tallies r)) ∧
            ∀ since, w.loop.phase = .running since → w.loop.streak.Exact r) ↔
      c.supervisor.maxRestarts.toNat < 2 ^ 32 - 1 ∨ c.supervisor.stableAfter.toNat = 0) ∧
    ((∀ fate ms, Flushes (fourfold? q.maxBytes) ((Batcher.fresh q r fate).run ms)) ↔
      c.batch.maxBytes.toNat < 2 ^ 62) ∧
    (∀ moves w, (Watch.fresh r).played r name moves = some w →
      w.loop.streak.backoff ≤ r.maxBackoff ∧ IsDuration (w.loop.streak.backoff * 2)) ∧
    ∀ fate ms loop period deadline,
      ((Batcher.fresh q r fate).run ms).task = .active loop period deadline →
        (period ≤ max q.interval q.idleInterval ∧ IsDuration (period * 2)) ∧
          loop.streak.backoff ≤ r.maxBackoff ∧ IsDuration (loop.streak.backoff * 2) := by
  intro q r
  have hr : r.initialBackoff ≤ r.maxBackoff := initialBackoff_le c.supervisor
  have hpause := maxBackoff_lt c.supervisor
  have hstable : r.stableAfter = 0 ↔ c.supervisor.stableAfter.toNat = 0 := by
    show c.supervisor.stableAfter.toNat * 1000 = 0 ↔ _
    omega
  have hsize : q.maxBytes * 4 < 2 ^ 64 ↔ c.batch.maxBytes.toNat < 2 ^ 62 := by
    show max c.batch.maxBytes.toNat 1 * 4 < 2 ^ 64 ↔ _
    omega
  obtain ⟨hexact, hnumbers⟩ := counted_iff r name
  rw [hstable] at hexact hnumbers
  refine ⟨StreamConfig.parse_text c, ⟨fun h => ?_, fun h moves w hw => ?_⟩,
    (flushes_iff q r).trans hsize, fun moves w hw => ?_, fun fate ms loop period deadline ht => ?_⟩
  · exact hexact.mp fun moves w hw => (h moves w hw).2
  · exact ⟨hnumbers.mpr h moves w hw, hexact.mpr h moves w hw⟩
  · have hle := played_backoff_le hr hr hw
    exact ⟨hle, isDuration_double hle hpause⟩
  · have htask := ((Steady.fresh q r fate).run hr ms).task
    rw [ht] at htask
    exact ⟨⟨htask.1, isDuration_double htask.1 (period_bound_lt c.batch)⟩, htask.2,
      isDuration_double htask.2 hpause⟩

/-- The greatest settings with which words suffice: a loop that has failed once, and a batcher whose
loop has flushed, and then found nothing to do. -/
theorem words_suffice_below :
    let c : StreamConfig :=
      { batch := { maxBytes := 4611686018427387903 }, supervisor := { maxRestarts := 4294967294 } }
    let q := BatchPolicy.ofSection c.batch
    let r := RestartPolicy.ofSection c.supervisor
    let moves : List Supervisor.Move :=
      [.attempt 0, .ending 5 (.failed ["lost"]), .wake 105, .attempt 105]
    let ms : List Batcher.Move := [.op .start, .turn, .op (.write "%0" ⟨#[0]⟩), .tick 16, .turn,
      .tick 16, .turn]
    ∃ w loop, (Watch.fresh r).played r "loop" moves = some w ∧ numbers w.loop.events = [1] ∧
      w.isOver = false ∧ numbers w.loop.events = w.tallies r ∧ w.loop.streak.Exact r ∧
      w.loop.streak.backoff ≤ r.maxBackoff ∧
      Flushes (fourfold? q.maxBytes) ((Batcher.fresh q r).run ms) ∧
      ((Batcher.fresh q r).run ms).task = .active loop 32 64 ∧
      32 ≤ max q.interval q.idleInterval ∧ IsDuration (32 * 2) := by
  intro c q r moves ms
  obtain ⟨-, hcount, hflush, hpause, htick⟩ := words_suffice_iff c "loop"
  let w : Watch :=
    { loop := ⟨.running 105, ⟨1, 200⟩, [.restarted "loop" 1 "lost"]⟩, now := 105
      starts := [0, 105], ended := [{ lasts := 5, ending := .failed ["lost"] }] }
  have hw : (Watch.fresh r).played r "loop" moves = some w := by decide +kernel
  have ht : ((Batcher.fresh q r).run ms).task = .active ⟨.running 0, ⟨0, 100⟩, []⟩ 32 64 := by
    decide +kernel
  obtain ⟨hnumbers, hexact⟩ := hcount.mpr (.inl (by decide)) moves w hw
  obtain ⟨⟨hle, hfits⟩, -⟩ := htick _ ms _ _ _ ht
  exact ⟨w, _, hw, rfl, rfl, hnumbers.2 rfl, hexact 105 rfl, (hpause moves w hw).1,
    hflush.mpr (by decide) _ ms, ht, hle, hfits⟩

/-- **The smallest size with which flushes break off.** Its fourfold is no word. Where that is
noticed, one byte that is written is lost in the first flush in memory, be it a round or the last
one. -/
theorem words_run_out :
    let c : StreamConfig := { batch := { maxBytes := 4611686018427387904 } }
    let q := BatchPolicy.ofSection c.batch
    let b := (Batcher.fresh q default).run [.op (.write "%0" ⟨#[0]⟩), .tick 16]
    StreamConfig.parse c.text = .ok c ∧ fourfold? q.maxBytes = none ∧
    b.panes.entries = [("%0", ⟨⟨#[0]⟩, 0, 0⟩)] ∧
    ∀ last, takeWhere q.maxBytes (fourfold? q.maxBytes) (b.wanted last)
      [("%0", ⟨⟨⟨#[0]⟩, 0, 0⟩, 8⟩)] = (none, [("%0", ⟨⟨⟨#[]⟩, 0, 0⟩, 8⟩)]) := by
  intro c q b
  have hwide : fourfold? q.maxBytes = none := word?_of_le (by decide)
  refine ⟨StreamConfig.parse_text c, hwide, panes_written q default, fun last => ?_⟩
  rw [hwide]
  exact takeWhere_none q.maxBytes "%0" (by cases last <;> decide) [] (List.forall_mem_nil _)

/-- **The smallest number of restarts with which the count comes round.** Where that is not noticed,
there is a run of a loop on which an attempt is reported as number 0. -/
theorem numbers_run_out :
    let c : StreamConfig := { supervisor := { maxRestarts := 4294967295 } }
    let r := RestartPolicy.ofSection c.supervisor
    StreamConfig.parse c.text = .ok c ∧
    ∃ moves w, (Watch.fresh r).played r "output-batcher" moves = some w ∧
      0 ∈ numbers w.loop.events := by
  intro c r
  exact ⟨StreamConfig.parse_text c, (exists_full (by decide) (by decide) "output-batcher").2⟩

end PaneRelay.Config
