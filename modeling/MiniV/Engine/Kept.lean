/-
**Each session and what llama holds for it.**

`EntryKept` says of one session how its entry fits the outside: a HOT session's context holds its
tokens, and `pending` ones that are decoded but not recorded yet; a swapped session's file holds
tokens with the cells of just these tokens; a session that was never HOT has none. With `bounded`,
contexts and files stay within `n_ctx`, and a file holds the very tokens of its entry.

* `Kept.update`: what one session and its own context and file go through leaves the others as they
  are, for no two sessions share a context (`Rep`) or a path (`swapPathFor_injective`);
* `Evict.kept`, `Move.kept`, `Served.kept`: no eviction and no call of the manager breaks it, except
  `recordTokens`, whose tokens have to be the pending ones (`Kept.record`).
-/

import MiniV.Llama.Contract
import MiniV.Session.Trace

namespace MiniV

open MiniV.Library
open MiniV.Library.NodeList (values)

variable {σ : Type} {L : Llama σ} {V : View σ} {w w' : World σ}

/-! ### One session -/

/-- What llama holds for a session. -/
structure EntryKept (V : View σ) (bounded : Prop) (pending : List Token) (w : World σ) (id : Int)
    (entry : SessionMeta) : Prop where
  path : entry.swapFilePath = [] ∨ entry.swapFilePath = swapPathFor w id
  mirrors : ∀ c, entry.ctx = some c → V.kv w.llama c = mirror (entry.tokens ++ pending)
  room : bounded → ∀ c, entry.ctx = some c → (V.kv w.llama c).length ≤ w.nCtx
  file : IsSwapped entry → ∃ tokens,
    V.file w.llama (swapPathFor w id) = some ⟨tokens, mirror tokens⟩ ∧
      (bounded → tokens = entry.tokens ∧ tokens.length ≤ w.nCtx)
  fresh : entry.state = .COLD → entry.swapFilePath = [] → entry.tokens = []

/-- **Every session is kept**, with the pending tokens of each. -/
def Kept (V : View σ) (bounded : Prop) (ahead : Int → List Token) (w : World σ) : Prop :=
  ∀ id entry, w.mSessions id = some entry → EntryKept V bounded (ahead id) w id entry

/-- No session has pending tokens. -/
def atRest : Int → List Token := fun _ => []

/-- The manager stores the same contexts and paths. -/
structure SamePlace (w w' : World σ) : Prop where
  dir : w'.mSwapDir = w.mSwapDir
  nCtx : w'.nCtx = w.nCtx

variable {bounded : Prop} {ahead : Int → List Token} {pending : List Token} {id : Int}
  {entry : SessionMeta}

theorem SamePlace.path (place : SamePlace w w') (id : Int) : swapPathFor w' id = swapPathFor w id := by
  unfold swapPathFor
  rw [place.dir]

namespace EntryKept

/-- What the outside holds for a session has not changed. -/
theorem frame (kept : EntryKept V bounded pending w id entry) (place : SamePlace w w')
    (kv : ∀ c, entry.ctx = some c → V.kv w'.llama c = V.kv w.llama c)
    (file : V.file w'.llama (swapPathFor w id) = V.file w.llama (swapPathFor w id)) :
    EntryKept V bounded pending w' id entry where
  path := by
    rw [place.path]
    exact kept.path
  mirrors c holds := (kv c holds).trans (kept.mirrors c holds)
  room bound c holds := by
    rw [kv c holds, place.nCtx]
    exact kept.room bound c holds
  file swapped := by
    rw [place.path, place.nCtx, file]
    exact kept.file swapped
  fresh := kept.fresh

/-- A HOT session keeps its context when its file is written. -/
theorem hot_frame (kept : EntryKept V bounded pending w id entry) (hot : entry.state = .HOT)
    (place : SamePlace w w') (kv : ∀ c, entry.ctx = some c → V.kv w'.llama c = V.kv w.llama c) :
    EntryKept V bounded pending w' id entry where
  path := by
    rw [place.path]
    exact kept.path
  mirrors c holds := (kv c holds).trans (kept.mirrors c holds)
  room bound c holds := by
    rw [kv c holds, place.nCtx]
    exact kept.room bound c holds
  file swapped := absurd swapped (not_swapped_of_hot hot)
  fresh cold := absurd hot (not_hot_of_cold cold)

/-- The place of a session in its list and its time do not matter. -/
theorem alike (kept : EntryKept V bounded pending w id entry) (it : Option Nat) (ms : Int) :
    EntryKept V bounded pending w id { entry with lruIt := it, lastUsedMs := ms } where
  path := kept.path
  mirrors := kept.mirrors
  room := kept.room
  file := kept.file
  fresh := kept.fresh

theorem path_eq (kept : EntryKept V bounded pending w id entry) (swapped : IsSwapped entry) :
    entry.swapFilePath = swapPathFor w id := kept.path.resolve_left swapped.2

/-- A session holds no more tokens than its context has room for. -/
theorem tokens_length (kept : EntryKept V bounded pending w id entry) (bound : bounded) {c : Ctx}
    (holds : entry.ctx = some c) : (entry.tokens ++ pending).length ≤ w.nCtx := by
  have room := kept.room bound c holds
  rw [kept.mirrors c holds, length_mirror] at room
  exact room

end EntryKept

/-! ### All sessions -/

/-- A change of one session, its own context and its own file. -/
theorem Kept.update (kept : Kept V bounded ahead w) {c : Ctx} {after : Option SessionMeta}
    (sessions : w'.mSessions = Function.update w.mSessions id after) (place : SamePlace w w')
    (only : V.Only c (swapPathFor w id) w.llama w'.llama)
    (others : ∀ id' entry, id' ≠ id → w.mSessions id' = some entry → entry.ctx ≠ some c)
    (own : ∀ entry, after = some entry → EntryKept V bounded (ahead id) w' id entry) :
    Kept V bounded ahead w' := by
  intro id' entry found
  rw [sessions] at found
  by_cases same : id' = id
  · subst same
    rw [Function.update_self] at found
    exact own entry found
  · rw [Function.update_of_ne same] at found
    refine (kept id' entry found).frame place (fun c' holds => only.kv c' ?_)
      (only.file _ fun path => same (swapPathFor_injective path))
    rintro rfl
    exact others id' entry same found holds

/-- Nobody else holds the context of a session. -/
theorem Rep.not_owner (rep : Rep w) {c : Ctx} (found : w.mSessions id = some entry)
    (holds : entry.ctx = some c) :
    ∀ id' entry', id' ≠ id → w.mSessions id' = some entry' → entry'.ctx ≠ some c :=
  fun id' entry' other found' holds' =>
    other (rep.owned.unique id' id entry' entry c found' found holds' holds)

/-- Nobody holds the context that is created next. -/
theorem Rep.not_created (rep : Rep w) :
    ∀ id' entry', id' ≠ id → w.mSessions id' = some entry' → entry'.ctx ≠ some w.created :=
  fun id' entry' _ found' holds' =>
    Nat.lt_irrefl _ (rep.owned.born id' entry' w.created found' holds')

/-! ### Evictions -/

section Outside

variable (doc : Documented L V)

include doc

theorem saveOf_kv (c : Ctx) (entry : SessionMeta) (w : World σ) :
    V.kv (saveOf L c entry w).2 = V.kv w.llama := (doc.save c _ entry.tokens w.llama).1

theorem saveOf_only (c : Ctx) (entry : SessionMeta) (w : World σ) :
    V.Only c (swapPathFor w entry.id) w.llama (saveOf L c entry w).2 :=
  (doc.save c _ entry.tokens w.llama).only

theorem measureOf_kv (c : Ctx) (entry : SessionMeta) (w : World σ) :
    V.kv (measureOf L c entry w).2 = V.kv w.llama :=
  (doc.size c _).1.trans (saveOf_kv doc c entry w)

theorem measureOf_only (c : Ctx) (entry : SessionMeta) (w : World σ) :
    V.Only c (swapPathFor w entry.id) w.llama (measureOf L c entry w).2 :=
  (saveOf_only doc c entry w).trans (doc.size c _).only

/-- After a save the file holds the tokens of the entry and the cells of its context. -/
theorem measureOf_file {c : Ctx} (saved : (saveOf L c entry w).1 ≠ 0) :
    V.file (measureOf L c entry w).2 (swapPathFor w entry.id) =
      some ⟨entry.tokens, V.kv w.llama c⟩ := by
  rw [measureOf, (doc.size c _).2]
  exact doc.saved c _ _ _ saved

theorem pruneOf_only (c : Ctx) (count : Nat) (path : Bytes) (llama : σ) :
    V.Only c path llama (pruneOf L c count llama) :=
  (doc.remove c 0 count llama).only.trans (doc.add c count (-1) (-count) _).only

/-- Pruning a context that mirrors tokens leaves one that mirrors the rest. -/
theorem pruneOf_kv {c : Ctx} {count : Nat} {llama : σ} {tokens : List Token}
    (mirrors : V.kv llama c = mirror tokens) (few : count ≤ tokens.length) :
    V.kv (pruneOf L c count llama) c = mirror (tokens.drop count) := by
  rw [pruneOf, doc.added, doc.removed, mirrors, mirror_drop count tokens few]

/-- Killing a swapped session removes its own file only. -/
theorem kept_coldKilled (kept : Kept V bounded ahead w) (rep : Rep w) {n : Node Int}
    (found : w.mSessions n.val = some entry) (swapped : IsSwapped entry) :
    Kept V bounded ahead (coldKilled L n entry w) := by
  have unlinked : V.OnlyFile (swapPathFor w n.val) w.llama (coldKilled L n entry w).llama := by
    rw [← (kept n.val entry found).path_eq swapped]
    exact doc.unlink entry.swapFilePath w.llama
  exact kept.update rfl ⟨rfl, rfl⟩ unlinked.only rep.not_created of_none

theorem kept_dropCold {dropped kept' : List (Node Int)} (kept : Kept V bounded ahead w)
    (rep : Rep w) (split : w.mColdLru = dropped ++ kept') :
    Kept V bounded ahead (dropCold L dropped w) := by
  refine Move.dropCold_induction rep split kept fun w n entry rep' kept' _ _ found swapped => ?_
  exact kept_coldKilled doc kept' rep' found swapped

/-- **Evictions keep every session** as long as nothing is pending. -/
theorem Evict.kept (move : Evict L w w') (rep : Rep w) (kept : Kept V bounded atRest w) :
    Kept V bounded atRest w' := by
  cases move with
  | @saveFailed id entry c found hot holds failed =>
    have own := rep.keyed id entry found
    refine kept.update (update_found found).symm ⟨rfl, rfl⟩ (own ▸ saveOf_only doc c entry w)
      (rep.not_owner found holds) (of_some ?_)
    exact (kept id entry found).hot_frame hot ⟨rfl, rfl⟩ fun c' _ => by
      rw [show V.kv (saveOf L c entry w).2 = _ from saveOf_kv doc c entry w]
  | @prune id entry c found hot holds saved large exceeds =>
    have own := rep.keyed id entry found
    have here := kept id entry found
    obtain ⟨_, few⟩ := pruneAmount_bounds large
    have mirrors : V.kv (measureOf L c entry w).2 c = mirror entry.tokens := by
      rw [measureOf_kv doc, here.mirrors c holds, atRest, List.append_nil]
    have pruned := pruneOf_kv doc mirrors few.le
    have only : V.Only c (swapPathFor w id) w.llama (measureOf L c entry w).2 :=
      own ▸ measureOf_only doc c entry w
    refine kept.update rfl ⟨rfl, rfl⟩ (only.trans (pruneOf_only doc c _ _ _))
      (rep.not_owner found holds) (of_some ?_)
    refine ⟨here.path, fun c' holds' => ?_, fun bound c' holds' => ?_,
      fun swapped => absurd swapped (not_swapped_of_hot hot), fun cold => absurd hot (not_hot_of_cold cold)⟩
    · rw [holds, Option.some.injEq] at holds'
      subst holds'
      rw [atRest, List.append_nil]
      exact pruned
    · rw [holds, Option.some.injEq] at holds'
      subst holds'
      have length := here.tokens_length bound holds
      rw [atRest, List.append_nil] at length
      refine (congrArg List.length pruned).le.trans ?_
      rw [length_mirror, List.length_drop]
      exact (Nat.sub_le _ _).trans length
  | @swapOut id entry c it found hot holds full first saved accepted =>
    have own := rep.keyed id entry found
    have here := kept id entry found
    have mirrors := here.mirrors c holds
    rw [atRest, List.append_nil] at mirrors
    have freed := doc.free c (measureOf L c entry w).2
    have file : V.file (L.free c (measureOf L c entry w).2) (swapPathFor w id) =
        some ⟨entry.tokens, mirror entry.tokens⟩ := by
      rw [freed.2, ← mirrors, ← measureOf_file doc saved, own]
    have only : V.Only c (swapPathFor w id) w.llama (measureOf L c entry w).2 :=
      own ▸ measureOf_only doc c entry w
    refine kept.update rfl ⟨rfl, rfl⟩ (only.trans freed.only) (rep.not_owner found holds)
      (of_some ?_)
    refine ⟨Or.inr rfl, fun c' none => (by cases none), fun _ c' none => (by cases none),
      fun _ => ⟨entry.tokens, file, fun bound => ⟨rfl, ?_⟩⟩,
      fun _ none => absurd none (swapPathFor_ne_nil w id)⟩
    have length := here.tokens_length bound holds
    rwa [atRest, List.append_nil] at length
  | @coldEvict excludeId dropped kept' split stopped =>
    intro id entry found
    exact (kept_dropCold doc kept rep split id entry found).frame ⟨rfl, rfl⟩ (fun _ _ => rfl) rfl

theorem Evicts.kept (evicts : Evicts L w w') (rep : Rep w) (kept : Kept V bounded atRest w) :
    Kept V bounded atRest w' := by
  induction evicts with
  | refl => exact kept
  | tail before move ih => exact Evict.kept doc move (Evicts.rep before rep) ih

/-! ### Loading a file -/

/-- A load is made from the file that was there before the context was created. -/
theorem loadOf_file (entry : SessionMeta) (w : World σ) (path : Bytes) :
    V.file (loadOf L entry w).2 path = V.file w.llama path := by
  rw [loadOf, (doc.load _ _ _ _).2, (doc.init _ _).2]

theorem loadOf_only (entry : SessionMeta) (w : World σ) (path : Bytes) :
    V.Only w.created path w.llama (loadOf L entry w).2 :=
  (doc.init _ _).only.trans (doc.load _ _ _ _).only

/-- What a load that succeeds has read. -/
theorem loadOf_loaded {saved : Saved} (file : V.file w.llama entry.swapFilePath = some saved)
    (loaded : (loadOf L entry w).1.loaded ≠ 0) :
    saved.tokens.length ≤ w.nCtx ∧ (loadOf L entry w).1.tokensOut = saved.tokens ∧
      V.kv (loadOf L entry w).2 w.created = saved.cells := by
  obtain ⟨saved', file', fits, tokensOut, cells⟩ := doc.loaded _ _ _ _ loaded
  rw [(doc.init _ _).2, file, Option.some.injEq] at file'
  subst file'
  exact ⟨fits, tokensOut, cells⟩

/-- A load fails only on a file with too many tokens. -/
theorem loadOf_loads (loads : LoadsBack L V) {saved : Saved}
    (file : V.file w.llama entry.swapFilePath = some saved) (fits : saved.tokens.length ≤ w.nCtx) :
    (loadOf L entry w).1.loaded ≠ 0 := by
  refine loads _ _ _ _ saved ?_ fits
  rw [(doc.init _ _).2, file]

omit doc in
/-- The tokens of a session after a load are those that were read. -/
theorem resize_loadedBuffer {tokens : List Token} (read : (loadOf L entry w).1.tokensOut = tokens)
    (fits : tokens.length ≤ w.nCtx) :
    resize (loadOf L entry w).1.tokensOut.length (loadedBuffer L entry w) = tokens := by
  have room : (resize w.nCtx entry.tokens).length = w.nCtx := length_resize _ _
  rw [loadedBuffer, read, overwrite, room, List.take_of_length_le fits, resize, List.take_left,
    List.length_append, Nat.sub_eq_zero_of_le (Nat.le_add_right _ _), List.replicate_zero,
    List.append_nil]

/-! ### Calls of the manager -/

omit doc in
/-- What is recorded is no quiet change. -/
theorem Quiet.not_recorded {tokens : List Token} (quiet : Quiet w w')
    (grown : w'.trace = w.trace ++ [.recorded id tokens]) : False := by
  obtain ⟨new, split, plain⟩ := quiet
  rw [grown, List.append_cancel_left_eq] at split
  exact plain (.recorded id tokens) (split ▸ List.mem_cons_self)

/-- **Moves keep every session** as long as nothing is pending and nothing is recorded. -/
theorem Move.kept (loads : bounded → LoadsBack L V) (move : Move L w w') (quiet : ∀ id tokens,
    w'.trace ≠ w.trace ++ [.recorded id tokens]) (rep : Rep w) (kept : Kept V bounded atRest w) :
    Kept V bounded atRest w' := by
  cases move with
  | evict move => exact Evict.kept doc move rep kept
  | create id absent =>
    rw [createSession_new absent]
    exact kept.update rfl ⟨rfl, rfl⟩ (doc.clock w.llama).only rep.not_created
      (of_some ⟨Or.inl rfl, fun c none => (by cases none), fun _ c none => (by cases none),
        fun swapped => absurd rfl swapped.2, fun _ _ => rfl⟩)
  | @killHot id entry c it found hot holds inside =>
    exact kept.update rfl ⟨rfl, rfl⟩ (doc.free c w.llama).only (rep.not_owner found holds) of_none
  | @killCold n entry found inside =>
    have swapped : IsSwapped entry :=
      rep.cold.holds_of_mem (NodeList.mem_values.mpr ⟨n, inside, rfl⟩) found
    exact kept_coldKilled doc kept rep found swapped
  | @killNew id entry found cold noFile =>
    exact kept.update rfl ⟨rfl, rfl⟩ (View.Untouched.only ⟨rfl, rfl⟩) rep.not_created of_none
  | @record id entry tokens found => exact absurd rfl (quiet id tokens)
  | @touch id entry it found hot inside =>
    have clock := doc.clock w.llama
    refine kept.update (c := w.created) rfl ⟨rfl, rfl⟩ clock.only rep.not_created (of_some ?_)
    refine EntryKept.alike ?_ _ _
    exact (kept id entry found).frame ⟨rfl, rfl⟩ (fun c _ => congrFun clock.1 c) (congrFun clock.2 _)
  | initFailed failed =>
    intro id entry found
    have init := doc.init w.created w.llama
    refine (kept id entry found).frame ⟨rfl, rfl⟩ (fun c holds => init.1 c ?_) (congrFun init.2 _)
    exact (rep.owned.born id entry c found holds).ne
  | @loadFailed id entry found swapped initOk failed =>
    have here := kept id entry found
    obtain ⟨tokens, file, fits⟩ := here.file swapped
    have file' : V.file w.llama entry.swapFilePath = some ⟨tokens, mirror tokens⟩ := by
      rw [here.path_eq swapped, file]
    have freed := doc.free w.created (loadOf L entry w).2
    refine kept.update rfl ⟨rfl, rfl⟩ ((loadOf_only doc entry w _).trans freed.only)
      rep.not_created (of_some ⟨here.path, fun c holds => ?_, fun _ c holds => ?_, fun _ => ?_,
        fun _ noFile => absurd noFile swapped.2⟩)
    · rw [show entry.ctx = none from rep.ctx_of_cold found swapped.1] at holds
      cases holds
    · rw [show entry.ctx = none from rep.ctx_of_cold found swapped.1] at holds
      cases holds
    · refine ⟨tokens, ?_, fun bound => ?_⟩
      · exact (congrFun freed.2 _).trans ((loadOf_file doc entry w _).trans file)
      · exact absurd failed (loadOf_loads doc (loads bound) file' (fits bound).2)
  | @swapIn id entry it found swapped inside initOk loaded clock reads =>
    have here := kept id entry found
    obtain ⟨tokens, file, _⟩ := here.file swapped
    have file' : V.file w.llama entry.swapFilePath = some ⟨tokens, mirror tokens⟩ := by
      rw [here.path_eq swapped, file]
    obtain ⟨fits, read, cells⟩ := loadOf_loaded doc file' loaded
    have unlinked := doc.unlink entry.swapFilePath (loadOf L entry w).2
    have ticked := doc.clock (L.removeFile entry.swapFilePath (loadOf L entry w).2)
    rw [← reads] at ticked
    have kv : V.kv clock.2 w.created = mirror tokens := by
      rw [ticked.1, unlinked.1, cells]
    have after := resize_loadedBuffer read fits
    have only : V.Only w.created (swapPathFor w id) w.llama clock.2 := by
      rw [← here.path_eq swapped]
      exact ((loadOf_only doc entry w _).trans unlinked.only).trans ticked.only
    refine kept.update rfl ⟨rfl, rfl⟩ only rep.not_created (of_some ⟨here.path, fun c holds => ?_,
      fun _ c holds => ?_, fun cold => (by cases cold.1), fun cold => (by cases cold)⟩)
    · cases holds
      rw [atRest, List.append_nil]
      exact kv.trans (congrArg mirror after.symm)
    · cases holds
      exact ((congrArg List.length kv).trans (length_mirror tokens)).le.trans fits
  | @firstIn id entry found cold noFile initOk clock reads =>
    have here := kept id entry found
    have ticked := doc.clock (L.initFromModel w.created w.llama).2
    rw [← reads] at ticked
    have kv : V.kv clock.2 w.created = [] := by
      rw [ticked.1, doc.initEmpty w.created w.llama initOk]
    refine kept.update rfl ⟨rfl, rfl⟩ ((doc.init w.created w.llama).only.trans ticked.only)
      rep.not_created (of_some ⟨here.path, fun c holds => ?_, fun _ c holds => ?_,
        fun swapped => (by cases swapped.1), fun cold => (by cases cold)⟩)
    · cases holds
      refine kv.trans ?_
      rw [here.fresh cold noFile]
      rfl
    · cases holds
      exact (congrArg List.length kv).le.trans (Nat.zero_le _)

theorem Moves.kept (loads : bounded → LoadsBack L V) (moves : Moves L w w') (quiet : Quiet w w')
    (rep : Rep w) (kept : Kept V bounded atRest w) : Kept V bounded atRest w' := by
  induction moves with
  | refl => exact kept
  | @tail mid w' before move ih =>
    obtain ⟨early, grown⟩ := Moves.trace_grows before
    obtain ⟨late, grown'⟩ := move.trace_grows
    obtain ⟨new, whole, plain⟩ := quiet
    rw [← grown', ← grown, List.append_assoc, List.append_cancel_left_eq] at whole
    have first : Quiet w mid :=
      ⟨early, grown.symm, fun e member => plain e (whole ▸ List.mem_append_left _ member)⟩
    have second : Quiet mid w' :=
      ⟨late, grown'.symm, fun e member => plain e (whole ▸ List.mem_append_right _ member)⟩
    exact Move.kept doc loads move (fun id tokens => second.not_recorded) (Moves.rep before rep)
      (ih first)

/-- A move that is quiet keeps every session. -/
theorem Move.kept_of_quiet (loads : bounded → LoadsBack L V) (move : Move L w w')
    (quiet : Quiet w w') (rep : Rep w) (kept : Kept V bounded atRest w) :
    Kept V bounded atRest w' := Move.kept doc loads move (fun _ _ => quiet.not_recorded) rep kept

omit doc in
theorem withLimits_kept (op : Op) (kept : Kept V bounded ahead w) :
    Kept V bounded ahead (withLimits op w) := by
  cases op with
  | setHotLimit count =>
    exact fun id entry found => (kept id entry found).frame ⟨rfl, rfl⟩ (fun _ _ => rfl) rfl
  | setColdLimit bytes =>
    exact fun id entry found => (kept id entry found).frame ⟨rfl, rfl⟩ (fun _ _ => rfl) rfl
  | _ => exact kept

/-- **Every call of the manager but `recordTokens`** keeps every session. -/
theorem Served.kept (loads : bounded → LoadsBack L V) {op : Op} {r : Reply}
    (served : Served L w op r w') (silent : ∀ id tokens, op ≠ .recordTokens id tokens) (rep : Rep w)
    (kept : Kept V bounded atRest w) : Kept V bounded atRest w' := by
  cases served with
  | taken found => exact kept
  | @creates id absent =>
    have move := Move.create (L := L) id absent
    rw [createSession, absent] at move
    refine Move.kept doc loads move (fun id tokens grown => ?_) rep kept
    have length := congrArg List.length grown
    rw [List.length_append, List.length_singleton] at length
    exact Nat.succ_ne_self _ length.symm
  | kills shape => exact Moves.kept doc loads shape.moves shape.quiet rep kept
  | @limitsHot count _ _ eviction =>
    exact Evicts.kept doc eviction.evicts (withLimits_rep (.setHotLimit count) rep)
      (withLimits_kept (.setHotLimit count) kept)
  | @limitsCold bytes _ shape =>
    exact Evict.kept doc shape.move (withLimits_rep (.setColdLimit bytes) rep)
      (withLimits_kept (.setColdLimit bytes) kept)
  | activatesNobody absent => exact kept
  | activatesHot found hot shape =>
    exact Move.kept_of_quiet doc loads shape.move shape.quiet rep kept
  | activatesCold found cold eviction rest =>
    have early := Evicts.kept doc eviction.evicts rep kept
    have repMid := Evicts.rep eviction.evicts rep
    cases rest with
    | fails shape => exact Move.kept_of_quiet doc loads shape.move shape.quiet repMid early
    | takes shape => exact Move.kept_of_quiet doc loads shape.move shape.quiet repMid early
  | @recordsNobody id tokens absent => exact absurd rfl (silent id tokens)
  | @recordsCold id tokens _ found cold => exact absurd rfl (silent id tokens)
  | @recordsHot id tokens _ _ found hot shape => exact absurd rfl (silent id tokens)

end Outside

/-! ### Decoding and recording -/

/-- One session has pending tokens. -/
def aheadBy (id : Int) (tokens : List Token) : Int → List Token :=
  Function.update atRest id tokens

@[simp] theorem aheadBy_self (id : Int) (tokens : List Token) : aheadBy id tokens id = tokens :=
  Function.update_self ..

@[simp] theorem aheadBy_nil (id : Int) : aheadBy id [] = atRest := Function.update_eq_self id atRest

/-- **Decoding** a batch in the context of a session makes its tokens pending. -/
theorem Kept.decode (doc : Documented L V) (cap : bounded → Capacity L V w.nCtx)
    {tokens batch : List Token} {c : Ctx} (kept : Kept V bounded (aheadBy id tokens) w) (rep : Rep w)
    (found : w.mSessions id = some entry) (holds : entry.ctx = some c)
    (decoded : (L.decode c batch w.llama).1 = 0) (place : SamePlace w w')
    (sessions : w'.mSessions = w.mSessions) (llama : w'.llama = (L.decode c batch w.llama).2) :
    Kept V bounded (aheadBy id (tokens ++ batch)) w' := by
  have only := doc.decode c batch w.llama
  have cells := doc.decoded c batch w.llama
  have hot : IsHot entry := (rep.ctxHot id entry found).mp (by rw [holds]; rfl)
  rw [← llama] at only cells
  intro id' entry' found'
  rw [sessions] at found'
  have here := kept id' entry' found'
  by_cases same : id' = id
  · subst same
    rw [found, Option.some.injEq] at found'
    subst found'
    rw [aheadBy_self] at here ⊢
    have mirrors := here.mirrors c holds
    refine ⟨by rw [place.path]; exact here.path, fun c' holds' => ?_, fun bound c' holds' => ?_,
      fun swapped => absurd swapped (not_swapped_of_hot hot),
      fun cold => absurd hot (not_hot_of_cold cold)⟩
    · rw [holds, Option.some.injEq] at holds'
      subst holds'
      rw [cells, if_pos decoded, mirrors, mirror_append, List.append_assoc]
    · rw [holds, Option.some.injEq] at holds'
      subst holds'
      rw [llama, place.nCtx]
      exact cap bound c batch w.llama decoded
  · rw [aheadBy, Function.update_of_ne same] at here ⊢
    refine here.frame place (fun c' holds' => only.1 c' ?_) (congrFun only.2 _)
    rintro rfl
    exact rep.not_owner found holds id' entry' same found' holds'

/-- A decode that fails, or any call that leaves contexts and files alone, changes nothing. -/
theorem Kept.untouched (kept : Kept V bounded ahead w) (place : SamePlace w w')
    (sessions : w'.mSessions = w.mSessions) (same : V.Untouched w.llama w'.llama) :
    Kept V bounded ahead w' := by
  intro id entry found
  rw [sessions] at found
  exact (kept id entry found).frame place (fun c _ => by rw [same.1]) (by rw [same.2])

theorem decode_failed (doc : Documented L V) {c : Ctx} {batch : List Token} {llama : σ}
    (failed : (L.decode c batch llama).1 ≠ 0) : V.Untouched llama (L.decode c batch llama).2 := by
  have only := doc.decode c batch llama
  refine ⟨?_, only.2⟩
  funext c'
  by_cases same : c' = c
  · rw [same, doc.decoded, if_neg failed]
  · exact only.1 c' same

/-- **Recording** the pending tokens of a HOT session settles them. -/
theorem Kept.record {tokens : List Token} (kept : Kept V bounded (aheadBy id tokens) w)
    (found : w.mSessions id = some entry) (hot : entry.state = .HOT) :
    Kept V bounded atRest (recordedOf id entry tokens w) := by
  intro id' entry' found'
  by_cases same : id' = id
  · subst same
    have after : some (longerEntry entry tokens) = some entry' :=
      (Function.update_self id' _ w.mSessions).symm.trans found'
    cases after
    have here := kept id' entry found
    rw [aheadBy_self] at here
    refine ⟨here.path, fun c holds => ?_, here.room, fun swapped => absurd swapped
      (not_swapped_of_hot hot), fun cold => absurd hot (not_hot_of_cold cold)⟩
    rw [atRest, List.append_nil]
    exact here.mirrors c holds
  · have before : w.mSessions id' = some entry' :=
      (Function.update_of_ne same _ _).symm.trans found'
    have here := kept id' entry' before
    rw [aheadBy, Function.update_of_ne same] at here
    exact here.frame ⟨rfl, rfl⟩ (fun _ _ => rfl) rfl

end MiniV
