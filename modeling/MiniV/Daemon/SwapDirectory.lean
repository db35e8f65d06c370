/-
**What lies in the swap directory.**

A swap-out writes the file of a session, again and again while it prunes, and then moves the session to
`mColdLru`; a save that fails ends it before that. From then on nothing in the manager knows of a file
that was written already: killing the HOT session does not remove it.

* `leftBehind`: the sessions a swap-out gave up on, read off the record of events;
* `Move.directory`: every move keeps the directory to the files of `mColdLru` and of these;
* `swap_directory`: so it is in every state of the daemon, whatever it does in whatever order.
-/

import MiniV.Daemon.Crash
import MiniV.Engine.SaveFails

namespace MiniV

open MiniV.Library
open MiniV.Library.NodeList (values)

variable {σ : Type} {L : Llama σ} {w w' : World σ} {d d' : Daemon σ} {id : Int} {entry : SessionMeta}
  {c : Ctx} {nCtx : Nat} {swapDir : Bytes} {file : σ → Bytes → Option (List Token)}
  {before : Bytes → Prop}

/-! ### What swap-outs leave behind -/

/-- The sessions with a save that no swap-out has followed, after one more event. -/
def leftAfter (left : List Int) : Event → List Int
  | .saved id _ => id :: left
  | .swappedOut id _ _ _ => left.filter (· ≠ id)
  | .measured _ _ | .erased _ _ | .subtracted _ _ | .coldEviction _ _ _ _ _ _ | .recorded _ _
  | .loopDecode _ => left

/-- **The sessions left behind** by swap-outs that were given up after a save. -/
def leftBehind (events : List Event) : List Int := events.foldl leftAfter []

theorem leftBehind_append (events new : List Event) :
    leftBehind (events ++ new) = new.foldl leftAfter (leftBehind events) := List.foldl_append

/-- **The swap directory**: each session of `mColdLru` has its file there, and any other file was there
before or belongs to a session left behind. -/
structure Directory (file : σ → Bytes → Option (List Token)) (before : Bytes → Prop) (w : World σ) :
    Prop where
  cold : ∀ id ∈ values w.mColdLru, (file w.llama (swapPathFor w id)).isSome = true
  known : ∀ path, (file w.llama path).isSome = true → before path ∨
    ∃ id, path = swapPathFor w id ∧ (id ∈ values w.mColdLru ∨ id ∈ leftBehind w.trace)
  apart : ∀ id ∈ values w.mColdLru, id ∉ leftBehind w.trace

/-! ### One move -/

/-- Neither the files nor who has one changes. -/
theorem Directory.same (directory : Directory file before w) (place : SamePlace w w')
    (files : file w'.llama = file w.llama) (cold : values w'.mColdLru = values w.mColdLru)
    (left : leftBehind w'.trace = leftBehind w.trace) : Directory file before w' where
  cold id member := by
    rw [files, place.path]
    exact directory.cold id (cold ▸ member)
  known path here := by
    rw [files] at here
    simp only [place.path, cold, left]
    exact directory.known path here
  apart id member := by
    rw [left]
    exact directory.apart id (cold ▸ member)

/-- **One session**, with its own file, is swapped in or out, saved or killed. -/
theorem Directory.change (directory : Directory file before w) (place : SamePlace w w')
    (files : ∀ path, path ≠ swapPathFor w id → file w'.llama path = file w.llama path)
    (cold : ∀ other, other ≠ id → (other ∈ values w'.mColdLru ↔ other ∈ values w.mColdLru))
    (left : ∀ other, other ≠ id → (other ∈ leftBehind w'.trace ↔ other ∈ leftBehind w.trace))
    (own : id ∈ values w'.mColdLru →
      (file w'.llama (swapPathFor w id)).isSome = true ∧ id ∉ leftBehind w'.trace)
    (has : (file w'.llama (swapPathFor w id)).isSome = true →
      id ∈ values w'.mColdLru ∨ id ∈ leftBehind w'.trace) : Directory file before w' where
  cold other member := by
    rw [place.path]
    by_cases same : other = id
    · subst same
      exact (own member).1
    · rw [files _ fun path => same (swapPathFor_injective path)]
      exact directory.cold other ((cold other same).mp member)
  known path here := by
    simp only [place.path]
    by_cases same : path = swapPathFor w id
    · subst same
      exact Or.inr ⟨id, rfl, has here⟩
    · rw [files path same] at here
      refine (directory.known path here).imp_right ?_
      rintro ⟨other, rfl, belongs⟩
      have differs : other ≠ id := fun equal => same (by rw [equal])
      exact ⟨other, rfl, belongs.imp (cold other differs).mpr (left other differs).mpr⟩
  apart other member := by
    by_cases same : other = id
    · subst same
      exact (own member).2
    · rw [left other same]
      exact directory.apart other ((cold other same).mp member)

/-- **A HOT session is saved**, and not swapped out yet. -/
theorem Directory.saved (directory : Directory file before w) (place : SamePlace w w')
    (notCold : id ∉ values w.mColdLru) (lists : w'.mColdLru = w.mColdLru)
    (files : ∀ path, path ≠ swapPathFor w id → file w'.llama path = file w.llama path)
    (left : leftBehind w'.trace = id :: leftBehind w.trace) : Directory file before w' := by
  refine directory.change place files (fun other _ => by rw [lists]) (fun other differs => ?_)
    (fun member => absurd (lists ▸ member) notCold) fun _ => ?_
  · rw [left, List.mem_cons, or_iff_right differs]
  · rw [left]
    exact Or.inr List.mem_cons_self

section Files

variable (keeps : KeepsFiles L file) (removes : ∀ path s, file (L.removeFile path s) path = none)

include keeps removes

/-- Killing a swapped session removes its file. -/
theorem Directory.coldKilled (directory : Directory file before w) (rep : Rep w) (own : OwnPaths w)
    {n : Node Int} (inside : n ∈ w.mColdLru) (found : w.mSessions n.val = some entry)
    (swapped : IsSwapped entry) : Directory file before (coldKilled L n entry w) := by
  have list : values (MiniV.coldKilled L n entry w).mColdLru = (values w.mColdLru).filter (· ≠ n.val) :=
    NodeList.values_erase rep.cold.values inside
  have path := (own n.val entry found).resolve_left swapped.2
  have gone : file (MiniV.coldKilled L n entry w).llama (swapPathFor w n.val) = none := by
    rw [← path]
    exact removes _ _
  refine directory.change ⟨rfl, rfl⟩
    (fun path (other : path ≠ swapPathFor w n.val) =>
      coldKilled_files keeps.ownFiles own found swapped other)
    (fun other differs => ?_) (fun other _ => ?_) (fun member => ?_) fun here => ?_
  · rw [list, List.mem_filter, decide_eq_true_iff, and_iff_left differs]
  · rw [MiniV.coldKilled, leftBehind_append]
    rfl
  · rw [list, List.mem_filter, decide_eq_true_iff] at member
    exact absurd rfl member.2
  · rw [gone] at here
    cases here

theorem Directory.dropCold {dropped kept : List (Node Int)} (directory : Directory file before w)
    (rep : Rep w) (own : OwnPaths w) (split : w.mColdLru = dropped ++ kept) :
    Directory file before (dropCold L dropped w) := by
  refine (Move.dropCold_induction (P := fun w' => OwnPaths w' ∧ Directory file before w') rep split
    ⟨own, directory⟩ ?_).2
  rintro w' n entry rep' ⟨own', directory'⟩ _ inside found swapped
  exact ⟨(Move.killCold found inside).ownPaths rep' own',
    directory'.coldKilled keeps removes rep' own' inside found swapped⟩

theorem Evict.directory (move : Evict L w w') (rep : Rep w) (own : OwnPaths w)
    (directory : Directory file before w) : Directory file before w' := by
  have place := (Move.evict move).samePlace
  cases move with
  | @saveFailed id entry c found hot holds failed =>
    have keyed := rep.keyed id entry found
    refine directory.saved place (rep.not_mem_cold_of_hot found hot) rfl (fun path other => ?_) ?_
    · exact saveOf_files keeps.ownFiles c entry w (keyed ▸ other)
    · rw [leftBehind_append]
      rfl
  | @prune id entry c found hot holds saved large exceeds =>
    have keyed := rep.keyed id entry found
    refine directory.saved place (rep.not_mem_cold_of_hot found hot) rfl (fun path other => ?_) ?_
    · exact (congrFun (pruneOf_files keeps.ownFiles c _ _) path).trans
        (measureOf_files keeps.ownFiles c entry w (keyed ▸ other))
    · rw [leftBehind_append, ← keyed]
      rfl
  | @swapOut id entry c it found hot holds full first saved accepted =>
    have keyed := rep.keyed id entry found
    have notCold := rep.not_mem_cold_of_hot found hot
    have freed := keeps.free c (measureOf L c entry w).2
    have left : ∀ other, other ∈ leftBehind (w.trace ++ (saveEvents L c entry w ++ [.erased id id,
        .swappedOut id (measureOf L c entry w).1 w.levels
          ⟨values w.mColdLru ++ [id], (values w.mHotLru).filter (· ≠ id)⟩])) ↔
        other ∈ leftBehind w.trace ∧ other ≠ id := by
      intro other
      rw [leftBehind_append, saveEvents, keyed]
      simp only [List.cons_append, List.nil_append, List.foldl_cons, List.foldl_nil, leftAfter,
        List.mem_filter, List.mem_cons, decide_eq_true_eq]
      exact ⟨fun both => ⟨both.1.resolve_left both.2, both.2⟩, fun both => ⟨Or.inr both.1, both.2⟩⟩
    have list : values (w.mColdLru ++ [⟨w.nextNode, id⟩]) = values w.mColdLru ++ [id] :=
      NodeList.values_append ..
    refine directory.change place (fun path other => ?_) (fun other differs => ?_)
      (fun other differs => ?_) (fun _ => ⟨?_, fun member => ((left id).mp member).2 rfl⟩) fun _ => ?_
    · exact (congrFun freed path).trans (measureOf_files keeps.ownFiles c entry w (keyed ▸ other))
    · rw [list, List.mem_append, List.mem_singleton, or_iff_left differs]
    · rw [left, and_iff_left differs]
    · show (file (L.free c (measureOf L c entry w).2) (swapPathFor w id)).isSome = true
      rw [freed, measureOf, keeps.size, ← keyed, saveOf, keeps.saved _ _ _ _ saved]
      rfl
    · rw [list]
      exact Or.inl (List.mem_append_right _ List.mem_cons_self)
  | @coldEvict excludeId dropped kept split stopped =>
    refine (directory.dropCold keeps removes rep own split).same ⟨rfl, rfl⟩ rfl rfl ?_
    rw [World.note, leftBehind_append]
    rfl

/-- **Every move** keeps the directory. -/
theorem Move.directory (move : Move L w w') (rep : Rep w) (own : OwnPaths w)
    (directory : Directory file before w) : Directory file before w' := by
  have place := move.samePlace
  cases move with
  | evict move => exact Evict.directory keeps removes move rep own directory
  | create id absent =>
    rw [createSession_new absent] at place ⊢
    exact directory.same place (keeps.clock _) rfl rfl
  | killHot found hot holds inside =>
    exact directory.same place (keeps.free _ _) rfl (leftBehind_append ..)
  | @killCold n entry found inside =>
    have swapped : IsSwapped entry :=
      rep.cold.holds_of_mem (NodeList.mem_values.mpr ⟨n, inside, rfl⟩) found
    exact directory.coldKilled keeps removes rep own inside found swapped
  | killNew found cold noFile => exact directory.same place rfl rfl rfl
  | record tokens found => exact directory.same place rfl rfl (leftBehind_append ..)
  | touch found hot inside =>
    exact directory.same place (keeps.clock _) rfl (leftBehind_append ..)
  | initFailed failed => exact directory.same place (keeps.init _ _) rfl rfl
  | loadFailed found swapped initOk failed =>
    refine directory.same place ?_ rfl rfl
    rw [keeps.free, loadOf_files keeps.ownFiles]
  | @swapIn id entry it found swapped inside initOk loaded clock reads =>
    have path := (own id entry found).resolve_left swapped.2
    have list : values (w.mColdLru.erase ⟨it, id⟩) = (values w.mColdLru).filter (· ≠ id) :=
      NodeList.values_erase rep.cold.values inside
    refine directory.change place (fun path' (other : path' ≠ swapPathFor w id) => ?_)
      (fun other differs => ?_) (fun other _ => ?_) (fun member => ?_) fun here => ?_
    · show file clock.2 path' = file w.llama path'
      rw [reads, keeps.clock, keeps.unlink _ _ _ (path ▸ other), loadOf_files keeps.ownFiles]
    · rw [list, List.mem_filter, decide_eq_true_iff, and_iff_left differs]
    · rw [leftBehind_append]
      rfl
    · rw [list, List.mem_filter, decide_eq_true_iff] at member
      exact absurd rfl member.2
    · have gone : file clock.2 (swapPathFor w id) = none := by
        rw [reads, keeps.clock, ← path]
        exact removes _ _
      have some : (file clock.2 (swapPathFor w id)).isSome = true := here
      rw [gone] at some
      cases some
  | firstIn found cold noFile initOk clock reads =>
    refine directory.same place ?_ rfl rfl
    show file clock.2 = file w.llama
    rw [reads, keeps.clock, keeps.init]

theorem Moves.directory (moves : Moves L w w') (rep : Rep w) (own : OwnPaths w)
    (directory : Directory file before w) : Directory file before w' := by
  induction moves with
  | refl => exact directory
  | tail earlier move ih =>
    exact move.directory keeps removes (Moves.rep earlier rep) (Moves.ownPaths earlier rep own) ih

/-- **Every call** keeps it. -/
theorem serve_directory {op : Op} {r : Reply} (rep : Rep w) (own : OwnPaths w)
    (directory : Directory file before w) (served : serve L op w = .ok (r, w')) :
    Directory file before w' := by
  have limits : Directory file before (withLimits op w) := by
    cases op with
    | _ => exact ⟨directory.cold, directory.known, directory.apart⟩
  exact Moves.directory keeps removes (serve_served rep served).moves (withLimits_rep op rep)
    (withLimits_ownPaths op own) limits

/-! ### Whole runs -/

/-- **Every action** keeps it. -/
theorem Goes.directory (goes : Goes L w w') (rep : Rep w) (own : OwnPaths w)
    (directory : Directory file before w) : Directory file before w' := by
  cases goes with
  | rests => exact directory
  | calls served => exact serve_directory keeps removes rep own directory served
  | decodes => exact directory.same ⟨rfl, rfl⟩ (keeps.decode ..) rfl rfl
  | samples => exact directory.same ⟨rfl, rfl⟩ (keeps.sample ..) rfl rfl
  | loopDecodes => exact directory.same ⟨rfl, rfl⟩ (keeps.decode ..) rfl (leftBehind_append ..)

end Files

/-- When nothing was left behind and nothing was there, the files are those of `mColdLru`. -/
theorem Directory.exactly (directory : Directory file before w) (empty : ∀ path, ¬ before path)
    (none : leftBehind w.trace = []) (path : Bytes) :
    (file w.llama path).isSome = true ↔ ∃ id ∈ values w.mColdLru, path = swapPathFor w id := by
  constructor
  · intro here
    obtain ⟨id, same, belongs⟩ := (directory.known path here).resolve_left (empty path)
    rw [none] at belongs
    exact ⟨id, belongs.resolve_right List.not_mem_nil, same⟩
  · rintro ⟨id, member, rfl⟩
    exact directory.cold id member

/-- **The swap directory**, after any actions in any order: each session of `mColdLru` has its file, and
any other file was there at the start or belongs to a session that a swap-out gave up on; with none of
these, the files are exactly those of `mColdLru`. -/
theorem swap_directory (L : Llama σ) {ready : Bool} {llama : σ} {actions : List Action}
    (keeps : KeepsFiles L file) (removes : ∀ path s, file (L.removeFile path s) path = none)
    (reach : run (step L) actions (Daemon.start ready nCtx swapDir llama) = .ok d) :
    Directory file (fun path => (file llama path).isSome = true) d.world ∧
      ((∀ path, file llama path = none) → leftBehind d.world.trace = [] →
        ∀ path, (file d.world.llama path).isSome = true ↔
          ∃ id ∈ values d.world.mColdLru, path = swapPathFor d.world id) := by
  have start : Directory file (fun path => (file llama path).isSome = true)
      (World.start nCtx swapDir llama) :=
    ⟨fun id member => (by cases member), fun path here => Or.inl here,
      fun id member => (by cases member)⟩
  have directory := world_keeps (fun _ _ reached directory goes =>
    Goes.directory keeps removes goes reached.rep reached.paths directory) start reach
  refine ⟨directory, fun empty none path => directory.exactly (fun path here => ?_) none path⟩
  rw [empty path] at here
  cases here

theorem fullDisk_keepsFiles : KeepsFiles fullDisk simView.fileTokens :=
  { (sim_documented 100 10).keepsFiles with
    save := by
      intro c path tokens s path' other
      unfold fullDisk
      dsimp only
      split
      · rfl
      · exact (sim_documented 100 10).keepsFiles.save c path tokens s path' other
    saved := by
      intro c path tokens s
      unfold fullDisk
      dsimp only
      split
      · exact fun worked => absurd rfl worked
      · exact (sim_documented 100 10).keepsFiles.saved c path tokens s }

/-- A session of seventy tokens, a budget for sixty-five, and a swap-out whose second save finds the
disk full; then the session is destroyed. -/
def givenUp : List Action :=
  [.command (.setColdLimit 75), .createSession 1, .inferStream 1 (List.replicate 70 97) 0] ++
    List.replicate 5 (.advance (.hal 1)) ++ [.command (.setHotLimit 1), .destroySession 1]

/-- No session is left, and the file still is. -/
theorem swap_directory_givenUp : ∃ d,
    run (step fullDisk) givenUp (Daemon.start true 100 (text "/s") (Sim.start [])) = .ok d ∧
    d.world.mSessions 1 = none ∧ leftBehind d.world.trace = [1, 1] ∧
    (simView.fileTokens d.world.llama (text "/s/1.state")).isSome = true ∧
    Directory simView.fileTokens
      (fun path => (simView.fileTokens (Sim.start []) path).isSome = true) d.world := by
  have state : ∃ d, run (step fullDisk) givenUp (Daemon.start true 100 (text "/s") (Sim.start [])) =
      .ok d ∧ d.world.mSessions 1 = none ∧ leftBehind d.world.trace = [1, 1] ∧
        (simView.fileTokens d.world.llama (text "/s/1.state")).isSome = true := by
    refine gives_iff.mp ?_
    decide +kernel
  obtain ⟨d, reach, gone, left, there⟩ := state
  have removes : ∀ path s, simView.fileTokens (fullDisk.removeFile path s) path = none := by
    intro path s
    have unlinked : simView.file (fullDisk.removeFile path s) path = none := Function.update_self ..
    rw [View.fileTokens, unlinked]
    rfl
  exact ⟨d, reach, gone, left, there, (swap_directory fullDisk fullDisk_keepsFiles removes reach).1⟩

end MiniV
