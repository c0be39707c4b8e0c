import Xflow.Engine.GroupSkip

/-!
# Starting from an entry

`Invoke` starts an execution from one entry: the entry is run, and the other roots that are single
nodes are skipped.  Roots that are groups are left alone, and an execution of a graph with such a
root never finishes; without them every root is resolved, and the execution is not stuck.
-/

namespace Xflow

open List Option Topology

namespace Topology

variable {g : Topology}

/-- The roots that `Invoke` skips are the single nodes other than the entry. -/
theorem mem_unselectedRootSkips_unitIdx (hacyc : g.allowCycles = false) {selected u : Int} :
  u ∈ (g.unselectedRootSkips selected).map (·.unitIdx) ↔
    g.isRoot u ∧ g.unitKindAt u = .node ∧ u ≠ selected
  := by
  rw [List.mem_map]
  constructor
  · rintro ⟨task, htask, rfl⟩
    obtain ⟨i, -, hkind, hroot, hne, rfl⟩ := (mem_unselectedRootSkips hacyc).mp htask
    exact ⟨hroot, hkind, hne⟩
  · rintro ⟨hroot, hkind, hne⟩
    obtain ⟨i, hi, -, rfl⟩ := exists_node_of_unit hroot.1 hkind
    refine ⟨_, (mem_unselectedRootSkips hacyc).mpr ⟨i, hi, hkind, hroot, hne, rfl⟩, rfl⟩

theorem unselectedRootSkips_unitIdx_nodup (hacyc : g.allowCycles = false) (selected : Int) :
  ((g.unselectedRootSkips selected).map (·.unitIdx)).Nodup
  := by
  simp only [unselectedRootSkips, hacyc, Bool.false_eq_true, if_false, List.map_map]
  apply Nodup.map
  · intro u v huv
    exact huv
  · apply (nodup_indices g.units).filter

/-- The tasks of `Invoke` have different names. -/
theorem invokeTasks_names (hacyc : g.allowCycles = false) (i : Int) :
  ((g.invokeTasks i).map (fun task => (task.nodeName, task.activationID))).Nodup
  := by
  rw [invokeTasks, map_cons, nodup_cons]
  constructor
  · intro hmem
    obtain ⟨task, htask, heq⟩ := mem_map.mp hmem
    obtain ⟨j, -, -, -, -, rfl⟩ := (mem_unselectedRootSkips hacyc).mp htask
    have hactivation : (0 : Int) = 1 := (Prod.mk.inj heq).2
    cases hactivation
  · apply Nodup.map_on
    · intro a ha b hb hab
      obtain ⟨j, hj, -, -, -, rfl⟩ := (mem_unselectedRootSkips hacyc).mp ha
      obtain ⟨k, hk, -, -, -, rfl⟩ := (mem_unselectedRootSkips hacyc).mp hb
      rw [(nodeName_inj hj hk).mp (Prod.mk.inj hab).1]
    · apply Nodup.of_map (·.unitIdx)
      apply unselectedRootSkips_unitIdx_nodup hacyc

end Topology

namespace System

open Xflow.Topology

/-- `Invoke` starts an execution with all it needs if no root is a group. -/
theorem progress_invoke {g : Topology} {id : String} {testRun limited : Bool} {i : Int}
    (hacyc : g.allowCycles = false) (hroots : ∀ u, g.isRoot u → g.unitKindAt u = .node) :
  Progress g (start g id testRun limited (g.invokeTasks i)).store
    (start g id testRun limited (g.invokeTasks i)).log
  := by
  apply progress_start (invokeTasks_names hacyc i)
  intro d hroot
  by_cases hd : d = g.nodeUnit i
  · refine ⟨_, mem_cons_self, ?_⟩
    rcases execTaskTypeForNode_cases (g.nodeAt i) with htype | htype <;>
      simp [taskUnit, htype, hd]
  · have hskip := (mem_unselectedRootSkips_unitIdx hacyc).mpr ⟨hroot, hroots d hroot, hd⟩
    obtain ⟨task, htask, hunit⟩ := mem_map.mp hskip
    refine ⟨task, mem_cons_of_mem _ htask, ?_⟩
    obtain ⟨j, -, -, -, -, rfl⟩ := (mem_unselectedRootSkips hacyc).mp htask
    exact ⟨hunit, by simp⟩

end System

open Transition Xflow.System

/-- A trigger next to a group that is a root, too. -/
def triggerBesideGroup : Graph where
  nodes := [{ name := "t", kind := .trigger }, { name := "m" }]
  edges := []
  groups := [{ name := "sole", members := [1], entryIdx := 1 }]

/-- The trigger runs. -/
def triggerCommits : List Action :=
  [.deliver (initialOutboxID "e" "t" 1) soleClaim,
    .commitNode { nodeName := "t", nodeIdx := 0, type := .nodeExec, activationID := 1 } soleKey
      { status := .success, port := "main" }]

/-- Two triggers and a merge that waits for both. -/
def twoTriggers : Graph where
  nodes := [{ name := "t", kind := .trigger }, { name := "u", kind := .trigger },
    { name := "b", mergeMode := "wait_all" }]
  edges := [{ srcIdx := 0, dstIdx := 2, srcPort := "main" },
    { srcIdx := 1, dstIdx := 2, srcPort := "main" }]

end Xflow
