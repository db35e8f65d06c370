/-
**The session that is activated, under the eviction its activation triggers.**

Before it creates a context for a COLD session, `activateForInfer` swaps HOT sessions out, and each
swap-out trims the cold list with its own victim excluded. The session being activated stands in
that list when it has a swap file, and nothing excludes it.

* `HotEviction.coldFiles`: an eviction of HOT sessions lets their files join the cold list one by one;
* `HasRoom`: the session's file, the files behind it and those that join fit in the budget;
* `keeps_iff_hasRoom`: an activation keeps its session exactly then;
* `activation_keeps`: over whole runs.
-/

import MiniV.Llama.Sim
import MiniV.Session.Representation

namespace MiniV

open MiniV.Library
open MiniV.Library.NodeList (values)

variable {σ : Type} {L : Llama σ} {w w' : World σ}

/-! ### What the activation must keep, and when it does -/

/-- A session is HOT, owns a context and is the last of the hot list. -/
structure Activated (id : Int) (c : Ctx) (w : World σ) : Prop where
  owns : ∃ entry, w.mSessions id = some entry ∧ entry.state = .HOT ∧ entry.ctx = some c
  last : (values w.mHotLru).getLast? = some id

/-- **The activation keeps its session**: the session is there after the eviction, the call returns,
and with a context the session is activated. -/
structure Keeps (L : Llama σ) (id : Int) (w : World σ) : Prop where
  survives : ∀ entry, w.mSessions id = some entry → entry.state = .COLD →
    ∃ w1, evictHotIfNeeded L id w = .ok w1 ∧ (w1.mSessions id).isSome = true
  returns : (w.mSessions id).isSome = true →
    ∃ c w', activateForInfer L id w = .ok (c, w') ∧ ∀ ctx, c = some ctx → Activated id ctx w'

/-- The sizes llama reports for the sessions that are swapped out to make room, one by one. -/
def reportedSizes (L : Llama σ) (excludeId : Int) : Nat → World σ → List (Int × UInt64)
  | 0, _ => []
  | rounds + 1, w =>
    if w.mHotLimit ≤ w.mHotLru.length ∧ w.mHotLru ≠ [] then
      let victim := hotVictim excludeId w.mHotLru
      if victim = -1 then []
      else
        match savedSize L victim w, swapOut L victim w with
        | some bytes, .ok (_, w') => (victim, bytes) :: reportedSizes L excludeId rounds w'
        | _, _ => []
    else []

/-- The sizes reported when room is made for the activation of a session. -/
def roomSizes (L : Llama σ) (id : Int) (w : World σ) : List (Int × UInt64) :=
  reportedSizes L id (w.mHotLru.length + 1) w

/-- The files of the cold list from that of a session on. -/
def filesFrom (id : Int) (files : List (Int × UInt64)) : List (Int × UInt64) :=
  files.dropWhile fun f => f.1 ≠ id

/-- **There is room** for the activation of a session: it is HOT, or has no swap file, or nobody is
swapped out for it, or its file, those behind it in the cold list and those of the sessions swapped
out for it fit in the budget together. -/
def HasRoom (L : Llama σ) (id : Int) (w : World σ) : Prop :=
  ∀ entry ∈ w.mSessions id, entry.state = .HOT ∨ entry.swapFilePath = [] ∨ roomSizes L id w = [] ∨
    fileTotal (filesFrom id w.coldFiles) + fileTotal (roomSizes L id w) ≤ w.mColdLimitBytes.toNat

instance (id : Int) (w : World σ) : Decidable (HasRoom L id w) :=
  inferInstanceAs (Decidable (∀ entry ∈ w.mSessions id, _))

/-- The files of the cold list and those that join it stay below `2 ^ 64` bytes. -/
def RoomFits (L : Llama σ) (id : Int) (w : World σ) : Prop :=
  fileTotal w.coldFiles + fileTotal (roomSizes L id w) < 2 ^ 64

instance (id : Int) (w : World σ) : Decidable (RoomFits L id w) :=
  inferInstanceAs (Decidable (_ < _))

/-! ### The cold list under an eviction of HOT sessions -/

theorem fileTotal_append (first second : List (Int × UInt64)) :
    fileTotal (first ++ second) = fileTotal first + fileTotal second := by
  rw [fileTotal, List.map_append, List.sum_append]
  rfl

theorem coldStops_of_le {excludeId : Int} {limit : UInt64} {files : List (Int × UInt64)}
    (within : fileTotal files ≤ limit.toNat) : coldStops excludeId limit files = true := by
  rw [coldStops, Bool.or_eq_true, decide_eq_true_eq, UInt64.le_iff_toNat_le, UInt64.toNat_ofNat']
  exact Or.inl ((Nat.mod_le _ _).trans within)

theorem le_of_coldStops {excludeId : Int} {limit : UInt64} {files : List (Int × UInt64)}
    (stops : coldStops excludeId limit files = true) (fits : fileTotal files < 2 ^ 64)
    (others : files.map Prod.fst ≠ [excludeId]) : fileTotal files ≤ limit.toNat := by
  rw [coldStops, Bool.or_eq_true, decide_eq_true_eq, UInt64.le_iff_toNat_le, UInt64.toNat_ofNat',
    Nat.mod_eq_of_lt fits] at stops
  exact stops.resolve_right fun alone => others (of_decide_eq_true alone)

namespace HotEviction

variable {excludeId : Int} {sizes : List (Int × UInt64)}

/-- **The files of the victims join the cold list one by one**, and after each it is trimmed with
that victim excluded. -/
theorem coldFiles (eviction : HotEviction L excludeId w w' sizes) :
    w'.coldFiles = admitAll (fun f => coldStops f.1 w.mColdLimitBytes) w.coldFiles sizes := by
  induction eviction with
  | stop stopped => rfl
  | fail goes first swap => exact swap.files
  | swap goes first swap later ih =>
    rw [ih, swap.files, (Evicts.limits swap.evicts).2]
    rfl

/-- The victims are HOT. -/
theorem victims_hot (eviction : HotEviction L excludeId w w' sizes) :
    ∀ f ∈ sizes, f.1 ∈ values w.mHotLru := by
  induction eviction with
  | stop stopped =>
    intro f member
    cases member
  | fail goes first swap =>
    intro f member
    cases member
  | @swap w w' w'' n bytes sizes goes first swap later ih =>
    intro f member
    rcases List.mem_cons.mp member with rfl | member
    · exact NodeList.mem_values.mpr ⟨n, (Move.inside_of_first first).1, rfl⟩
    · exact swap.hot_subset (ih f member)

/-- The sizes are those llama reports. -/
theorem sizes_eq {rounds : Nat} (eviction : HotEviction L excludeId w w' sizes)
    (away : Away excludeId w) (enough : w.mHotLru.length < rounds) :
    reportedSizes L excludeId rounds w = sizes := by
  induction eviction generalizing rounds with
  | @stop w stopped =>
    cases rounds with
    | zero => rfl
    | succ rounds =>
      rw [reportedSizes]
      rcases stopped with room | nobody
      · rw [if_neg room]
      · rw [if_pos nobody, ite_self]
  | @fail w w' n goes first swap =>
    obtain ⟨full, named⟩ := not_or.mp goes
    obtain ⟨n', first', victim⟩ := hotVictim_first away named
    rw [first, Option.some.injEq] at first'
    subst first'
    cases rounds with
    | zero => rfl
    | succ rounds =>
      rw [reportedSizes, if_pos (not_not.mp full), if_neg named, victim, swap.size]
  | @swap w w' w'' n bytes sizes goes first swap later ih =>
    obtain ⟨full, named⟩ := not_or.mp goes
    obtain ⟨n', first', victim⟩ := hotVictim_first away named
    rw [first, Option.some.injEq] at first'
    subst first'
    have shorter := swap.shorter
    cases rounds with
    | zero => exact absurd enough (Nat.not_lt_zero _)
    | succ rounds =>
      have rest : reportedSizes L excludeId rounds w' = sizes := ih (swap.away away) (by omega)
      rw [reportedSizes, if_pos (not_not.mp full), if_neg named, victim, swap.size, swap.result]
      show (n.val, bytes) :: reportedSizes L excludeId rounds w' = (n.val, bytes) :: sizes
      rw [rest]

end HotEviction

/-! ### The session in the cold list -/

/-- An eviction leaves a session that was never HOT as it is. -/
theorem Evict.new_entry (move : Evict L w w') (rep : Rep w) {id : Int} {entry : SessionMeta}
    (found : w.mSessions id = some entry) (cold : entry.state = .COLD)
    (noFile : entry.swapFilePath = []) : w'.mSessions id = some entry := by
  rcases Evict.cold_entry move rep found cold with same | ⟨_, member⟩
  · exact same
  · exact absurd noFile (rep.cold.holds_of_mem member found).2

theorem Evicts.new_entry (evicts : Evicts L w w') (rep : Rep w) {id : Int} {entry : SessionMeta}
    (found : w.mSessions id = some entry) (cold : entry.state = .COLD)
    (noFile : entry.swapFilePath = []) : w'.mSessions id = some entry := by
  induction evicts with
  | refl => exact found
  | tail before move ih => exact Evict.new_entry move (Evicts.rep before rep) ih cold noFile

theorem mem_coldFiles (rep : Rep w) {id : Int} {entry : SessionMeta}
    (found : w.mSessions id = some entry) (swapped : IsSwapped entry) :
    (id, entry.swapFileBytes) ∈ w.coldFiles := by
  obtain ⟨it, _, inside⟩ := rep.cold.node id entry found swapped
  refine List.mem_map.mpr ⟨⟨it, id⟩, inside, ?_⟩
  simp only [World.fileOf, World.bytesOf, found]

/-- A swapped session survives an eviction exactly when its file stays in the cold list. -/
theorem survives_iff_mem (rep : Rep w) (evicts : Evicts L w w') {id : Int} {entry : SessionMeta}
    (found : w.mSessions id = some entry) (swapped : IsSwapped entry) :
    (w'.mSessions id).isSome = true ↔ (id, entry.swapFileBytes) ∈ w'.coldFiles := by
  have rep' := Evicts.rep evicts rep
  constructor
  · intro alive
    rcases Evicts.cold_entry evicts rep found swapped.1 with same | dead
    · exact mem_coldFiles rep' same swapped
    · rw [dead] at alive
      cases alive
  · intro member
    obtain ⟨n, inside, same⟩ := List.mem_map.mp member
    obtain ⟨entry', found', _⟩ := rep'.cold.owner n inside
    rw [show n.val = id from congrArg Prod.fst same] at found'
    rw [found']
    rfl

theorem filesFrom_split {id : Int} {bytes : UInt64} {files : List (Int × UInt64)}
    (distinct : (files.map Prod.fst).Nodup) (member : (id, bytes) ∈ files) :
    ∃ front behind, files = front ++ (id, bytes) :: behind ∧
      filesFrom id files = (id, bytes) :: behind ∧ (id, bytes) ∉ behind := by
  obtain ⟨front, behind, split⟩ := List.append_of_mem member
  rw [split, List.map_append, List.map_cons] at distinct
  have apart := List.disjoint_of_nodup_append distinct
  refine ⟨front, behind, split, ?_, ?_⟩
  · have before : ∀ f ∈ front, decide (f.1 ≠ id) = true := fun f inside =>
      decide_eq_true fun same => apart (List.mem_map.mpr ⟨f, inside, same⟩) List.mem_cons_self
    rw [filesFrom, split, List.dropWhile_append_of_pos before, List.dropWhile_cons_of_neg]
    simp
  · have once := (List.nodup_cons.mp (List.nodup_append.mp distinct).2.1).1
    exact fun again => once (List.mem_map.mpr ⟨_, again, rfl⟩)

/-- With room, the file stays in the cold list. -/
theorem mem_of_room (limit : UInt64) {id : Int} {bytes : UInt64}
    {files sizes : List (Int × UInt64)} (distinct : (files.map Prod.fst).Nodup)
    (member : (id, bytes) ∈ files)
    (room : sizes = [] ∨ fileTotal (filesFrom id files) + fileTotal sizes ≤ limit.toNat) :
    (id, bytes) ∈ admitAll (fun f => coldStops f.1 limit) files sizes := by
  rcases room with none | within
  · rw [none]
    exact member
  · obtain ⟨front, behind, split, from', _⟩ := filesFrom_split distinct member
    have suffix : filesFrom id files <:+ files := List.dropWhile_suffix _
    refine (suffix_admitAll suffix fun early a late shape => coldStops_of_le ?_).subset ?_
    · rw [shape, fileTotal_append] at within
      have more : fileTotal (a :: late) = fileTotal [a] + fileTotal late := fileTotal_append [a] late
      rw [fileTotal_append, fileTotal_append]
      omega
    · rw [from']
      exact List.mem_append_left _ List.mem_cons_self

/-- Where the file stays in the cold list, there was room. -/
theorem room_of_mem (limit : UInt64) {id : Int} {bytes : UInt64}
    {files sizes : List (Int × UInt64)} (distinct : (files.map Prod.fst).Nodup)
    (member : (id, bytes) ∈ files) (other : (id, bytes) ∉ sizes)
    (fits : fileTotal files + fileTotal sizes < 2 ^ 64)
    (stays : (id, bytes) ∈ admitAll (fun f => coldStops f.1 limit) files sizes) :
    sizes = [] ∨ fileTotal (filesFrom id files) + fileTotal sizes ≤ limit.toNat := by
  obtain ⟨front, behind, split, from', once⟩ := filesFrom_split distinct member
  rw [split] at stays
  obtain ⟨front', ⟨dropped, part⟩, fit⟩ := admitAll_of_mem once other stays
  cases last : sizes.getLast? with
  | none => exact Or.inl (List.getLast?_eq_none_iff.mp last)
  | some a =>
    have some' : sizes ≠ [] := fun none => by rw [none] at last; cases last
    have whole := fileTotal_append front ((id, bytes) :: behind)
    have rest := fileTotal_append dropped front'
    have kept := fileTotal_append front' ((id, bytes) :: behind ++ sizes)
    have tail := fileTotal_append ((id, bytes) :: behind) sizes
    rw [part] at rest
    rw [split] at fits
    have within := le_of_coldStops (fit a last) (by omega) fun alone => by
      have length := congrArg List.length alone
      have positive := List.length_pos_iff.mpr some'
      simp at length
      omega
    rw [from']
    exact Or.inr (by omega)

/-- **A COLD session survives the eviction of its activation when there is room**, and, when the
sizes fit in 64 bits, only then. -/
theorem survives_of_room (rep : Rep w) {id : Int} {entry : SessionMeta}
    (found : w.mSessions id = some entry) (cold : entry.state = .COLD) {w1 : World σ}
    {sizes : List (Int × UInt64)} (eviction : HotEviction L id w w1 sizes) (room : HasRoom L id w) :
    (w1.mSessions id).isSome = true := by
  have away : Away id w := Or.inr (rep.not_mem_hot_of_cold found cold)
  have sizes_eq : roomSizes L id w = sizes := eviction.sizes_eq away (Nat.lt_succ_self _)
  rcases room entry found with hot | noFile | room
  · rw [cold] at hot
    cases hot
  · rw [Evicts.new_entry eviction.evicts rep found cold noFile]
    rfl
  · by_cases noFile : entry.swapFilePath = []
    · rw [Evicts.new_entry eviction.evicts rep found cold noFile]
      rfl
    · have distinct : (w.coldFiles.map Prod.fst).Nodup := by
        rw [World.coldFiles, map_fst_fileOf]
        exact rep.cold.values
      rw [survives_iff_mem rep eviction.evicts found ⟨cold, noFile⟩, eviction.coldFiles]
      rw [sizes_eq] at room
      exact mem_of_room _ distinct (mem_coldFiles rep found ⟨cold, noFile⟩) room

theorem room_of_survives (rep : Rep w) {id : Int} {entry : SessionMeta}
    (found : w.mSessions id = some entry) (cold : entry.state = .COLD) {w1 : World σ}
    {sizes : List (Int × UInt64)} (eviction : HotEviction L id w w1 sizes)
    (fits : RoomFits L id w) (alive : (w1.mSessions id).isSome = true) : HasRoom L id w := by
  have noHot := rep.not_mem_hot_of_cold found cold
  have sizes_eq : roomSizes L id w = sizes :=
    eviction.sizes_eq (Or.inr noHot) (Nat.lt_succ_self _)
  intro entry' found'
  rw [Option.mem_def, found, Option.some.injEq] at found'
  subst found'
  by_cases noFile : entry.swapFilePath = []
  · exact Or.inr (Or.inl noFile)
  · have distinct : (w.coldFiles.map Prod.fst).Nodup := by
      rw [World.coldFiles, map_fst_fileOf]
      exact rep.cold.values
    rw [survives_iff_mem rep eviction.evicts found ⟨cold, noFile⟩, eviction.coldFiles] at alive
    rw [RoomFits, sizes_eq] at fits
    rw [sizes_eq]
    exact Or.inr (Or.inr (room_of_mem _ distinct (mem_coldFiles rep found ⟨cold, noFile⟩)
      (fun member => noHot (eviction.victims_hot _ member)) fits alive))

/-! ### The activation -/

theorem Touched.activated {id : Int} {entry : SessionMeta} {c : Ctx}
    (shape : Touched L id entry w w') (holds : entry.ctx = some c) : Activated id c w' := by
  obtain ⟨entry', found, hot, same, _⟩ := shape.entry
  refine ⟨⟨entry', found, hot, same.trans holds⟩, ?_⟩
  rw [shape.hot, List.getLast?_concat]

theorem TakesContext.activated {id : Int} (shape : TakesContext L id w w') :
    Activated id w.created w' := by
  refine ⟨shape.entry, ?_⟩
  rw [shape.hot, List.getLast?_concat]

/-- Whatever the eviction did, a context that is returned belongs to the session. -/
theorem activateForInfer_activated (rep : Rep w) {id : Int} {c : Ctx}
    (active : activateForInfer L id w = .ok (some c, w')) : Activated id c w' := by
  have served : serve L (.activateForInfer id) w = .ok (.ctx (some c), w') := by
    simp only [serve, active, ok_bind]
  have shape := serve_served rep served
  generalize reply : Reply.ctx (some c) = r at shape
  cases shape with
  | activatesNobody absent => cases reply
  | activatesHot found hot shape => exact shape.activated (Reply.ctx.inj reply).symm
  | activatesCold found cold eviction rest =>
    cases Reply.ctx.inj reply
    cases rest with
    | takes shape => exact shape.activated

/-- **With room, the activation keeps its session.** -/
theorem keeps_of_hasRoom (rep : Rep w) {id : Int} (room : HasRoom L id w) : Keeps L id w := by
  cases found : w.mSessions id with
  | none =>
    refine ⟨fun entry found' _ => ?_, fun alive => ?_⟩
    · rw [found] at found'
      cases found'
    · rw [found] at alive
      cases alive
  | some entry =>
    rcases hot_or_cold entry with hot | cold
    · obtain ⟨w', active, shape⟩ := activateForInfer_hot (L := L) rep found hot
      refine ⟨fun entry' found' cold => ?_, fun _ => ⟨_, w', active, fun c => shape.activated⟩⟩
      rw [found, Option.some.injEq] at found'
      rw [← found', hot] at cold
      cases cold
    · obtain ⟨w1, sizes, evicted, eviction, rest⟩ := activateForInfer_cold (L := L) rep found cold
      have alive := survives_of_room rep found cold eviction room
      refine ⟨fun _ _ _ => ⟨w1, evicted, alive⟩, fun _ => ?_⟩
      cases outcome : activateForInfer L id w with
      | error e =>
        rw [outcome] at rest
        cases rest with
        | gone initOk dead =>
          rw [dead] at alive
          cases alive
      | ok result =>
        rw [outcome] at rest
        cases rest with
        | fails shape => exact ⟨_, _, rfl, fun c none => by cases none⟩
        | takes shape =>
          refine ⟨_, _, rfl, fun c same => ?_⟩
          cases same
          exact shape.activated

/-- **When the sizes fit in 64 bits, the activation keeps its session exactly when there is room.** -/
theorem keeps_iff_hasRoom (rep : Rep w) {id : Int} (fits : RoomFits L id w) :
    Keeps L id w ↔ HasRoom L id w := by
  refine ⟨fun keeps => ?_, keeps_of_hasRoom rep⟩
  intro entry found
  rcases hot_or_cold entry with hot | cold
  · exact Or.inl hot
  · obtain ⟨w1, evicted, alive⟩ := keeps.survives entry found cold
    obtain ⟨w1', sizes, evicted', eviction, _⟩ := activateForInfer_cold (L := L) rep found cold
    rw [evicted, Except.ok.injEq] at evicted'
    subst evicted'
    exact room_of_survives rep found cold eviction fits alive entry found

/-! ### Whole runs -/

/-- Every activation among the calls has room. -/
def Roomy (L : Llama σ) (w : World σ) : Op → Prop
  | .activateForInfer id => HasRoom L id w
  | _ => True

instance (w : World σ) : ∀ op, Decidable (Roomy L w op)
  | .activateForInfer id => inferInstanceAs (Decidable (HasRoom L id w))
  | .createSession _ | .killSession _ | .setHotLimit _ | .setColdLimit _ | .recordTokens _ _ =>
    isTrue trivial

/-- Every activation among the calls keeps its session. -/
def KeepsOwn (L : Llama σ) (w : World σ) : Op → Prop
  | .activateForInfer id => Keeps L id w
  | _ => True

theorem KeepsOwn.spares {op : Op} (keeps : KeepsOwn L w op) : killsItself L op w = false := by
  cases op with
  | activateForInfer id =>
    cases found : w.mSessions id with
    | none => simp only [killsItself, found]
    | some entry =>
      rcases hot_or_cold entry with hot | cold
      · simp only [killsItself, found, hot]
      · obtain ⟨w1, evicted, alive⟩ := keeps.survives entry found cold
        rw [Bool.eq_false_iff, Ne, killsItself_iff found cold evicted]
        intro dead
        rw [dead] at alive
        cases alive
  | _ => rfl

theorem Roomy.keepsOwn (rep : Rep w) {op : Op} (roomy : Roomy L w op) : KeepsOwn L w op := by
  cases op with
  | activateForInfer id => exact keeps_of_hasRoom rep roomy
  | _ => trivial

/-- **Activations over whole runs.** A run whose activations all have room comes to its end, and
every activation in it keeps its session. In the state any run reaches, an activation that has room
keeps its session, and when the sizes fit in 64 bits only one that has room does. -/
theorem activation_keeps (L : Llama σ) (nCtx : Nat) (swapDir : Bytes) (llama : σ) (ops : List Op) :
    (Along (serve L) (Roomy L) ops (World.start nCtx swapDir llama) →
      (∃ w, run (serve L) ops (World.start nCtx swapDir llama) = .ok w) ∧
        Along (serve L) (KeepsOwn L) ops (World.start nCtx swapDir llama)) ∧
      ∀ w, run (serve L) ops (World.start nCtx swapDir llama) = .ok w → ∀ id,
        (HasRoom L id w → Keeps L id w) ∧ (RoomFits L id w → (Keeps L id w ↔ HasRoom L id w)) := by
  have kept : ∀ (w : World σ) (op : Op) (r : Reply) (w' : World σ), Rep w →
      serve L op w = .ok (r, w') → Rep w' := fun w op r w' rep served => serve_rep rep served
  constructor
  · intro roomy
    have keeps : Along (serve L) (KeepsOwn L) ops (World.start nCtx swapDir llama) :=
      along_of_invariant (I := Rep) (fun w op r w' rep _ => kept w op r w' rep)
        (fun w op rep here => here.keepsOwn rep) (Rep.start nCtx swapDir llama) roomy
    obtain ⟨w, reach, _⟩ := run_sound (keeps.mono fun w op here => here.spares)
    exact ⟨⟨w, reach⟩, keeps⟩
  · intro w reach id
    have rep : Rep w := run_invariant' kept (Rep.start nCtx swapDir llama) reach
    exact ⟨keeps_of_hasRoom rep, keeps_iff_hasRoom rep⟩

/-- Two sessions take turns in one place, and the budget holds both their files. -/
def turns : List Op :=
  [.setHotLimit 1, .setColdLimit 21, .createSession 1, .createSession 2, .activateForInfer 1,
    .recordTokens 1 [5], .activateForInfer 2, .activateForInfer 1, .activateForInfer 2]

theorem activation_keeps_turns :
    (∃ w, run (serve (sim 4 10)) turns (World.start 4 (text "/s") (Sim.start [])) = .ok w) ∧
      Along (serve (sim 4 10)) (KeepsOwn (sim 4 10)) turns
        (World.start 4 (text "/s") (Sim.start [])) :=
  (activation_keeps (sim 4 10) 4 (text "/s") (Sim.start []) turns).1 (by decide +kernel)

/-- The same with a budget that holds one file only. -/
def squeezed : List Op :=
  [.setHotLimit 1, .setColdLimit 10, .createSession 1, .createSession 2, .activateForInfer 1,
    .activateForInfer 2]

theorem activation_keeps_squeezed :
    ∃ w, run (serve (sim 4 10)) squeezed (World.start 4 (text "/s") (Sim.start [])) = .ok w ∧
      (w.mSessions 1).isSome = true ∧ ¬ Keeps (sim 4 10) 1 w ∧
      activateForInfer (sim 4 10) 1 w = .error .danglingMeta := by
  have fails : Gives (fun w : World Sim => (w.mSessions 1).isSome = true ∧
      faultOf (activateForInfer (sim 4 10) 1 w) = some .danglingMeta)
      (run (serve (sim 4 10)) squeezed (World.start 4 (text "/s") (Sim.start []))) := by
    decide +kernel
  obtain ⟨w, reach, alive, faults⟩ := gives_iff.mp fails
  have dangling := eq_error_of_faultOf faults
  refine ⟨w, reach, alive, fun keeps => ?_, dangling⟩
  obtain ⟨c, w', active, _⟩ := keeps.returns alive
  rw [dangling] at active
  cases active

end MiniV
