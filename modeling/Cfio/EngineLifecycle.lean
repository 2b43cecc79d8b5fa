import Cfio.SyncLifecycle
import Cfio.LibaioLifecycle
import Cfio.IoUringLifecycle

/-! # The four engines over their whole life

    `Open`, `SubmitIO`, `PollCompletions`, `Close` and `IsDirectEnabled` in any order,
    against any kernel: no engine leaks a descriptor or a context, and `Close` makes it
    as good as new. -/

namespace CfioEngineLifecycle

open CfioTypes CfioConfig CfioEngine Lifecycle Transition

/-- Whatever a client calls and the kernel answers, from a new device on. -/
def NeverLeaks {σ ω κ ξ ρ γ ε : Type} (D : Device σ Int32 ω κ ξ ρ γ ε) : Prop :=
  ∀ (calls : List (Call ω κ ξ ρ γ)) (o : Owned σ Int32),
    run D.step { state := D.new } calls = some o → Settled D o

/-- **No engine leaks.** -/
theorem engines_never_leak (admits : Int → Nat → Bool) :
    NeverLeaks CfioSyncEngines.psyncDevice ∧
    NeverLeaks CfioSyncEngines.syncDevice ∧
    NeverLeaks (CfioLibaio.libaioDevice admits) ∧
    NeverLeaks CfioIoUring.uringDevice := by
  refine ⟨?_, ?_, ?_, ?_⟩
  · exact fun calls o h =>
      (CfioSyncEngines.blockingTidy CfioSyncEngines.psync_executes).settled_of_run h
  · exact fun calls o h =>
      (CfioSyncEngines.blockingTidy CfioSyncEngines.sync_executes).settled_of_run h
  · exact fun calls o h => (CfioLibaio.libaioTidy admits).settled_of_run h
  · exact fun calls o h => CfioIoUring.uringTidy.settled_of_run h

/-- `libaio`, with a limit to the requests of a context. -/
def someLibaio : Device CfioLibaio.Libaio Int32 CfioLibaio.AioOpen CfioLibaio.AioKernel
    (List (Int × CfioLibaio.GetEvents)) IORequest IOCompletion Exn :=
  CfioLibaio.libaioDevice (fun m n => m ≤ (n : Int))

/-- A context that could not be created, then one that could, and a request. -/
def secondOpen : List (Call CfioLibaio.AioOpen CfioLibaio.AioKernel
    (List (Int × CfioLibaio.GetEvents)) IORequest IOCompletion) :=
  [.openWith { config := CfioLibaio.depthTwoJob, first := ⟨3, 0⟩, setupRet := -11 },
    .openWith { config := CfioLibaio.depthTwoJob, first := ⟨4, 0⟩ },
    .submit {} { id := 7 }]

/-- The device holds what it opened at the second attempt, and nothing any more after a
    `Close` that gives up on the request in flight. -/
theorem engines_never_leak_second :
    (∃ o, run someLibaio.step { state := someLibaio.new } secondOpen = some o
      ∧ (o.state.engine.fd, o.holds.handles, o.holds.contexts) = (4, [4], 1)
      ∧ Settled someLibaio o)
    ∧ ∃ o, run someLibaio.step { state := someLibaio.new }
        (secondOpen ++ [.close [(5000000000, .events [])]]) = some o
      ∧ (o.state.engine.fd, o.holds.handles, o.holds.contexts) = (-1, [], 0)
      ∧ Settled someLibaio o := by
  obtain ⟨-, -, hlibaio, -⟩ := engines_never_leak (fun m n => m ≤ (n : Int))
  refine ⟨⟨_, rfl, rfl, hlibaio secondOpen _ rfl⟩, ⟨_, rfl, rfl, ?_⟩⟩
  exact hlibaio (secondOpen ++ [.close [(5000000000, .events [])]]) _ rfl

end CfioEngineLifecycle
