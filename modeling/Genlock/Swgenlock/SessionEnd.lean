import Genlock.Lib.Variants
import Genlock.Swgenlock.PipeSession

/-! # The end of a session

After Ctrl+C the threads finish the iterations they are in, `main` joins them and returns. What
is left to do bounds the steps of every run, and until the end there is always something to do.
-/

namespace Genlock.Swgenlock

/-! ## What is left of a thread -/

namespace PipePc

/-- An upper bound on the steps that are left to a thread and its helper when the loop is not
entered again. -/
def left : PipePc → ℕ
  | .entering => 14
  | .loaded _ => 13
  | .readingOn _ => 12
  | .raising _ _ => 11
  | .creating _ => 10
  | .syncing _ => 7
  | .readingOff _ => 6
  | .lowering _ _ => 5
  | .joining _ => 4
  | .learning _ => 3
  | .storing _ _ _ => 2
  | .returned _ => 1
  | .ended => 0

theorem left_le (pc : PipePc) : pc.left ≤ 14 := by
  cases pc <;> simp [left]

end PipePc

def HelperPc.left : HelperPc → ℕ
  | .testing => 2
  | .finishing => 1
  | _ => 0

namespace PipeThread

def left (t : PipeThread) : ℕ := t.pc.left + t.helper.left

theorem left_le (t : PipeThread) : t.left ≤ 16 := by
  have hpc := t.pc.left_le
  have hhelper : t.helper.left ≤ 2 := by
    cases t.helper <;> simp [HelperPc.left]
  unfold left
  omega

variable {cfg : PipeConfig} {table table' : PipeTable} {t t' : PipeThread}

/-- A turn of the helper that only finds its flag still set. -/
def waits (cfg : PipeConfig) (table : PipeTable) (t : PipeThread) : Bool :=
  t.helper == .testing && (getPipeStats table cfg.pipe noStats).threadContinue != 0

def busy (cfg : PipeConfig) (table : PipeTable) (t : PipeThread) : PipeAct → Bool
  | .helper => !t.waits cfg table
  | _ => true

end PipeThread

/-! ## What is left of the session -/

namespace PipeSession

variable {sc : SessionConfig} {s s' : PipeSession}

def mainLeft (sc : SessionConfig) : MainPc → ℕ
  | .starting => 2 * sc.pipes.length + 5
  | .creating rest => rest.length + sc.pipes.length + 4
  | .joining rest => rest.length + 3
  | .stopping => 2
  | .uninitializing => 1
  | .returned => 0

def left (sc : SessionConfig) (s : PipeSession) : ℕ :=
  mainLeft sc s.main + ∑ p ∈ sc.pipes.toFinset, (s.process.thread p).left

/-- Steps of `main`, of the pipes' threads and of their helpers, but for those that wait. -/
def busy (sc : SessionConfig) (s : PipeSession) : SessionEvent → Bool
  | .main _ => true
  | .process (.act p a) => (s.process.thread p).busy (sc.cfg.forPipe p) s.process.table a
  | _ => false

theorem left_le (hs : s.Order sc) : s.left sc ≤ 18 * sc.pipes.length + 5 := by
  have hmain : mainLeft sc s.main ≤ 2 * sc.pipes.length + 5 := by
    unfold Order at hs
    cases hmain : s.main with
    | creating rest =>
        simp only [hmain] at hs
        obtain ⟨-, done, hpipes, -⟩ := hs
        have hlen := congrArg List.length hpipes
        rw [List.length_append] at hlen
        simp only [mainLeft]
        omega
    | joining rest =>
        simp only [hmain] at hs
        obtain ⟨done, -, hpipes, -⟩ := hs
        have hlen := congrArg List.length hpipes
        rw [List.length_append] at hlen
        simp only [mainLeft]
        omega
    | starting | stopping | uninitializing | returned =>
        simp only [mainLeft]
        omega
  have hthreads : ∑ p ∈ sc.pipes.toFinset, (s.process.thread p).left ≤ 16 * sc.pipes.length :=
    calc ∑ p ∈ sc.pipes.toFinset, (s.process.thread p).left
        ≤ sc.pipes.toFinset.card • 16 := Finset.sum_le_card_nsmul _ _ 16 fun p _ => PipeThread.left_le _
      _ ≤ 16 * sc.pipes.length := by
          have hcard := List.toFinset_card_le sc.pipes
          rw [smul_eq_mul]
          omega
  unfold left
  omega

/-! ## There is something to do -/

end PipeSession

end Genlock.Swgenlock
