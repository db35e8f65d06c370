/-
**The representation invariant of the session manager, part by part.**

`Rep w` says when the fields of a `World` fit together. It has three parts, each with one lemma for
every way an operation changes it:

* `Listed holds sessions l next` — the list `l` holds exactly the sessions that satisfy `holds`, each
  in one node, at the address its `lruIt` names. It is used twice: for the HOT sessions and
  `mHotLru`, and for the COLD sessions with a swap file and `mColdLru`.
* `Owned sessions created freed` — every context created is held by exactly one session and not
  freed, or held by none and freed exactly once.
* `totalBytes` — the bytes of the cold list, which `mColdUsedBytes` counts modulo `2 ^ 64`.
-/

import MiniV.Session.Manager

namespace MiniV

open MiniV.Library
open MiniV.Library.NodeList (values addresses eraseAt)

/-- The sessions under their ids. -/
abbrev Sessions := Int → Option SessionMeta

/-! ### One list and the sessions it lists -/

structure Listed (holds : SessionMeta → Prop) (sessions : Sessions) (l : List (Node Int))
    (next : Nat) : Prop where
  node : ∀ id entry, sessions id = some entry → holds entry →
    ∃ it, entry.lruIt = some it ∧ ⟨it, id⟩ ∈ l
  owner : ∀ n ∈ l, ∃ entry, sessions n.val = some entry ∧ holds entry
  addresses : (addresses l).Nodup
  values : (values l).Nodup
  fresh : ∀ n ∈ l, n.addr < next

namespace Listed

variable {holds : SessionMeta → Prop} {sessions : Sessions} {l : List (Node Int)} {next : Nat}

theorem empty : Listed holds (fun _ => none) [] next where
  node _ _ found := by cases found
  owner _ member := by cases member
  addresses := List.nodup_nil
  values := List.nodup_nil
  fresh _ member := by cases member

/-- A session is in the list exactly when it satisfies the property. -/
theorem mem_values_iff (listed : Listed holds sessions l next) (id : Int) :
    id ∈ NodeList.values l ↔ ∃ entry, sessions id = some entry ∧ holds entry := by
  constructor
  · intro member
    obtain ⟨n, inside, rfl⟩ := NodeList.mem_values.mp member
    exact listed.owner n inside
  · rintro ⟨entry, found, held⟩
    obtain ⟨it, _, inside⟩ := listed.node id entry found held
    exact NodeList.mem_values.mpr ⟨⟨it, id⟩, inside, rfl⟩

theorem holds_of_mem (listed : Listed holds sessions l next) {id : Int} {entry : SessionMeta}
    (member : id ∈ NodeList.values l) (found : sessions id = some entry) : holds entry := by
  obtain ⟨entry', found', held⟩ := (listed.mem_values_iff id).mp member
  rw [found, Option.some.injEq] at found'
  exact found' ▸ held

/-- **Erasing through the iterator of a listed session** takes out that session's own node. -/
theorem eraseAt_eq (listed : Listed holds sessions l next) {id : Int} {entry : SessionMeta}
    (found : sessions id = some entry) (held : holds entry) :
    ∃ it, entry.lruIt = some it ∧ ⟨it, id⟩ ∈ l ∧
      eraseAt l entry.lruIt = some (⟨it, id⟩, l.erase ⟨it, id⟩) := by
  obtain ⟨it, denotes, inside⟩ := listed.node id entry found held
  exact ⟨it, denotes, inside, denotes ▸ NodeList.eraseAt_of_mem listed.addresses inside⟩

/-- A session leaves the list: its entry goes, or stops to satisfy the property. -/
theorem erase (listed : Listed holds sessions l next) {id : Int} {node : Node Int}
    (inside : node ∈ l) (own : node.val = id) {after : Option SessionMeta}
    (gone : ∀ entry, after = some entry → ¬ holds entry) :
    Listed holds (Function.update sessions id after) (l.erase node) next where
  node id' entry found held := by
    by_cases same : id' = id
    · subst same
      rw [Function.update_self] at found
      exact absurd held (gone entry found)
    · rw [Function.update_of_ne same] at found
      obtain ⟨it, denotes, member⟩ := listed.node id' entry found held
      refine ⟨it, denotes, (NodeList.mem_erase listed.addresses).mpr ⟨fun equal => ?_, member⟩⟩
      rw [← equal] at own
      exact same own
  owner n member := by
    obtain ⟨other, member⟩ := (NodeList.mem_erase listed.addresses).mp member
    have apart : n.val ≠ id := fun equal =>
      other (List.inj_on_of_nodup_map listed.values member inside (equal.trans own.symm))
    rw [Function.update_of_ne apart]
    exact listed.owner n member
  addresses := NodeList.addresses_erase listed.addresses node
  values := listed.values.sublist (List.Sublist.map _ List.erase_sublist)
  fresh n member := listed.fresh n (List.mem_of_mem_erase member)

/-- A session joins the list at its end, in a new node. -/
theorem push (listed : Listed holds sessions l next) {id : Int} {entry : SessionMeta}
    (absent : id ∉ NodeList.values l) (held : holds entry) (denotes : entry.lruIt = some next) :
    Listed holds (Function.update sessions id (some entry)) (l ++ [⟨next, id⟩]) (next + 1) where
  node id' entry' found held' := by
    by_cases same : id' = id
    · subst same
      rw [Function.update_self, Option.some.injEq] at found
      subst found
      exact ⟨next, denotes, List.mem_append_right _ List.mem_cons_self⟩
    · rw [Function.update_of_ne same] at found
      obtain ⟨it, denotes', member⟩ := listed.node id' entry' found held'
      exact ⟨it, denotes', List.mem_append_left _ member⟩
  owner n member := by
    rcases List.mem_append.mp member with member | last
    · have apart : n.val ≠ id := fun equal =>
        absent (equal ▸ NodeList.mem_values.mpr ⟨n, member, rfl⟩)
      rw [Function.update_of_ne apart]
      exact listed.owner n member
    · rw [List.mem_singleton.mp last]
      exact ⟨entry, Function.update_self .., held⟩
  addresses := NodeList.addresses_push listed.addresses id listed.fresh
  values := by
    rw [NodeList.values_append]
    refine List.Nodup.append listed.values (List.nodup_singleton id) fun a member last => ?_
    rw [List.mem_singleton.mp last] at member
    exact absent member
  fresh n member := by
    rcases List.mem_append.mp member with member | last
    · exact Nat.lt_succ_of_lt (listed.fresh n member)
    · rw [List.mem_singleton.mp last]
      exact Nat.lt_succ_self next

/-- The entry of a session changes, but neither its place nor its iterator. -/
theorem change (listed : Listed holds sessions l next) {id : Int} {entry entry' : SessionMeta}
    (found : sessions id = some entry) (alike : holds entry' ↔ holds entry)
    (place : entry'.lruIt = entry.lruIt) :
    Listed holds (Function.update sessions id (some entry')) l next where
  node id' changed found' held := by
    by_cases same : id' = id
    · subst same
      rw [Function.update_self, Option.some.injEq] at found'
      subst found'
      rw [place]
      exact listed.node id' entry found (alike.mp held)
    · rw [Function.update_of_ne same] at found'
      exact listed.node id' changed found' held
  owner n member := by
    by_cases same : n.val = id
    · rw [same, Function.update_self]
      have mem : id ∈ NodeList.values l := NodeList.mem_values.mpr ⟨n, member, same⟩
      exact ⟨entry', rfl, alike.mpr (listed.holds_of_mem mem found)⟩
    · rw [Function.update_of_ne same]
      exact listed.owner n member
  addresses := listed.addresses
  values := listed.values
  fresh := listed.fresh

/-- A session outside the list changes and stays outside. -/
theorem outside (listed : Listed holds sessions l next) {id : Int} {after : Option SessionMeta}
    (absent : id ∉ NodeList.values l) (still : ∀ entry, after = some entry → ¬ holds entry) :
    Listed holds (Function.update sessions id after) l next where
  node id' entry found held := by
    by_cases same : id' = id
    · subst same
      rw [Function.update_self] at found
      exact absurd held (still entry found)
    · rw [Function.update_of_ne same] at found
      exact listed.node id' entry found held
  owner n member := by
    have apart : n.val ≠ id := fun equal =>
      absent (equal ▸ NodeList.mem_values.mpr ⟨n, member, rfl⟩)
    rw [Function.update_of_ne apart]
    exact listed.owner n member
  addresses := listed.addresses
  values := listed.values
  fresh := listed.fresh

theorem later (listed : Listed holds sessions l next) {next' : Nat} (le : next ≤ next') :
    Listed holds sessions l next' :=
  { listed with fresh := fun n member => lt_of_lt_of_le (listed.fresh n member) le }

end Listed

/-! ### Contexts -/

structure Owned (sessions : Sessions) (created : Nat) (freed : List Ctx) : Prop where
  unique : ∀ id id' entry entry' c, sessions id = some entry → sessions id' = some entry' →
    entry.ctx = some c → entry'.ctx = some c → id = id'
  once : ∀ c, c < created →
    ((∃ id entry, sessions id = some entry ∧ entry.ctx = some c) ∧ c ∉ freed) ∨
    ((∀ id entry, sessions id = some entry → entry.ctx ≠ some c) ∧ freed.count c = 1)
  born : ∀ id entry c, sessions id = some entry → entry.ctx = some c → c < created
  freedBorn : ∀ c ∈ freed, c < created

namespace Owned

variable {sessions : Sessions} {created : Nat} {freed : List Ctx}

theorem empty : Owned (fun _ => none) 0 [] where
  unique _ _ _ _ _ found := by cases found
  once _ before := absurd before (Nat.not_lt_zero _)
  born _ _ _ found := by cases found
  freedBorn _ member := by cases member

/-- A context a session holds is not freed. -/
theorem not_freed (owned : Owned sessions created freed) {id : Int} {entry : SessionMeta} {c : Ctx}
    (found : sessions id = some entry) (holds : entry.ctx = some c) : c ∉ freed := by
  rcases owned.once c (owned.born id entry c found holds) with ⟨_, alive⟩ | ⟨nobody, _⟩
  · exact alive
  · exact absurd holds (nobody id entry found)

/-- The context of the entry under `id`. -/
def ctxAt (sessions : Sessions) (id : Int) : Option Ctx := (sessions id).bind SessionMeta.ctx

theorem ctxAt_eq_some {id : Int} {c : Ctx} :
    ctxAt sessions id = some c ↔ ∃ entry, sessions id = some entry ∧ entry.ctx = some c :=
  Option.bind_eq_some_iff

/-- Only which session holds which context matters. -/
theorem congr {sessions' : Sessions} (owned : Owned sessions created freed)
    (same : ∀ id, ctxAt sessions' id = ctxAt sessions id) : Owned sessions' created freed where
  unique id id' entry entry' c found found' holds holds' := by
    obtain ⟨a, foundA, holdsA⟩ := ctxAt_eq_some.mp
      ((same id).symm.trans (ctxAt_eq_some.mpr ⟨entry, found, holds⟩))
    obtain ⟨b, foundB, holdsB⟩ := ctxAt_eq_some.mp
      ((same id').symm.trans (ctxAt_eq_some.mpr ⟨entry', found', holds'⟩))
    exact owned.unique id id' a b c foundA foundB holdsA holdsB
  once c before := by
    rcases owned.once c before with ⟨⟨id, entry, found, holds⟩, alive⟩ | ⟨nobody, count⟩
    · refine Or.inl ⟨⟨id, ?_⟩, alive⟩
      exact ctxAt_eq_some.mp ((same id).trans (ctxAt_eq_some.mpr ⟨entry, found, holds⟩))
    · refine Or.inr ⟨fun id entry found holds => ?_, count⟩
      obtain ⟨a, foundA, holdsA⟩ := ctxAt_eq_some.mp
        ((same id).symm.trans (ctxAt_eq_some.mpr ⟨entry, found, holds⟩))
      exact nobody id a foundA holdsA
  born id entry c found holds := by
    obtain ⟨a, foundA, holdsA⟩ := ctxAt_eq_some.mp
      ((same id).symm.trans (ctxAt_eq_some.mpr ⟨entry, found, holds⟩))
    exact owned.born id a c foundA holdsA
  freedBorn := owned.freedBorn

theorem ctxAt_update (id id' : Int) (after : Option SessionMeta) :
    ctxAt (Function.update sessions id after) id' =
      if id' = id then after.bind SessionMeta.ctx else ctxAt sessions id' := by
  by_cases same : id' = id
  · subst same
    rw [if_pos rfl, ctxAt, Function.update_self]
  · rw [if_neg same, ctxAt, Function.update_of_ne same, ctxAt]

/-- An entry changes but for its context. -/
theorem change (owned : Owned sessions created freed) {id : Int} {after : Option SessionMeta}
    (same : after.bind SessionMeta.ctx = ctxAt sessions id) :
    Owned (Function.update sessions id after) created freed := by
  refine owned.congr fun id' => ?_
  rw [ctxAt_update]
  split
  · rename_i equal
    rw [equal, same]
  · rfl

/-- A session gives up its context, which is freed. -/
theorem release (owned : Owned sessions created freed) {id : Int} {c : Ctx}
    (holds : ctxAt sessions id = some c) {after : Option SessionMeta}
    (empty : after.bind SessionMeta.ctx = none) :
    Owned (Function.update sessions id after) created (freed ++ [c]) := by
  obtain ⟨entry, found, here⟩ := ctxAt_eq_some.mp holds
  have reads : ∀ {id' : Int} {entry' : SessionMeta} {c' : Ctx},
      Function.update sessions id after id' = some entry' → entry'.ctx = some c' →
      id' ≠ id ∧ sessions id' = some entry' := by
    intro id' entry' c' found' here'
    by_cases same : id' = id
    · subst same
      rw [Function.update_self] at found'
      rw [found', Option.bind_some, here'] at empty
      cases empty
    · rw [Function.update_of_ne same] at found'
      exact ⟨same, found'⟩
  refine ⟨?_, ?_, ?_, ?_⟩
  · intro a b entryA entryB c' foundA foundB holdsA holdsB
    exact owned.unique a b entryA entryB c' (reads foundA holdsA).2 (reads foundB holdsB).2
      holdsA holdsB
  · intro c' before
    by_cases same : c' = c
    · subst same
      refine Or.inr ⟨fun id' entry' found' here' => ?_, ?_⟩
      · obtain ⟨apart, old⟩ := reads found' here'
        exact apart (owned.unique id' id entry' entry c' old found here' here)
      · rw [List.count_append, List.count_eq_zero.mpr (owned.not_freed found here)]
        simp
    · have notLast : c' ∉ [c] := fun member => same (List.mem_singleton.mp member)
      rcases owned.once c' before with ⟨⟨id', entry', found', here'⟩, alive⟩ | ⟨nobody, count⟩
      · refine Or.inl ⟨⟨id', entry', ?_, here'⟩, ?_⟩
        · have apart : id' ≠ id := by
            intro equal
            rw [equal, found, Option.some.injEq] at found'
            rw [← found', here, Option.some.injEq] at here'
            exact same here'.symm
          rw [Function.update_of_ne apart]
          exact found'
        · rw [List.mem_append]
          exact fun member => member.elim alive notLast
      · refine Or.inr ⟨fun id' entry' found' here' => ?_, ?_⟩
        · exact nobody id' entry' (reads found' here').2 here'
        · rw [List.count_append, count, List.count_eq_zero.mpr notLast]
  · intro id' entry' c' found' here'
    exact owned.born id' entry' c' (reads found' here').2 here'
  · intro c' member
    rcases List.mem_append.mp member with member | last
    · exact owned.freedBorn c' member
    · rw [List.mem_singleton.mp last]
      exact owned.born id entry c found here

/-- A session without a context takes a new one. -/
theorem adopt (owned : Owned sessions created freed) {id : Int}
    (empty : ctxAt sessions id = none) {entry : SessionMeta} (takes : entry.ctx = some created) :
    Owned (Function.update sessions id (some entry)) (created + 1) freed := by
  have reads : ∀ {id' : Int} {entry' : SessionMeta} {c' : Ctx},
      Function.update sessions id (some entry) id' = some entry' → entry'.ctx = some c' →
      (id' = id ∧ c' = created) ∨ (id' ≠ id ∧ sessions id' = some entry') := by
    intro id' entry' c' found' here'
    by_cases same : id' = id
    · subst same
      rw [Function.update_self, Option.some.injEq] at found'
      rw [← found', takes, Option.some.injEq] at here'
      exact Or.inl ⟨rfl, here'.symm⟩
    · rw [Function.update_of_ne same] at found'
      exact Or.inr ⟨same, found'⟩
  refine ⟨?_, ?_, ?_, ?_⟩
  · intro a b entryA entryB c' foundA foundB holdsA holdsB
    rcases reads foundA holdsA with ⟨rfl, newA⟩ | ⟨apartA, oldA⟩
    · rcases reads foundB holdsB with ⟨rfl, _⟩ | ⟨_, oldB⟩
      · rfl
      · exact absurd newA (Nat.ne_of_lt (owned.born b entryB c' oldB holdsB))
    · rcases reads foundB holdsB with ⟨_, newB⟩ | ⟨_, oldB⟩
      · exact absurd newB (Nat.ne_of_lt (owned.born a entryA c' oldA holdsA))
      · exact owned.unique a b entryA entryB c' oldA oldB holdsA holdsB
  · intro c' before
    by_cases new : c' = created
    · subst new
      refine Or.inl ⟨⟨id, entry, Function.update_self .., takes⟩, fun member => ?_⟩
      exact absurd (owned.freedBorn _ member) (Nat.lt_irrefl _)
    · have old : c' < created := by omega
      rcases owned.once c' old with ⟨⟨id', entry', found', here'⟩, alive⟩ | ⟨nobody, count⟩
      · refine Or.inl ⟨⟨id', entry', ?_, here'⟩, alive⟩
        have apart : id' ≠ id := by
          intro equal
          rw [equal] at found'
          rw [ctxAt_eq_some.mpr ⟨entry', found', here'⟩] at empty
          cases empty
        rw [Function.update_of_ne apart]
        exact found'
      · refine Or.inr ⟨fun id' entry' found' here' => ?_, count⟩
        rcases reads found' here' with ⟨_, same⟩ | ⟨_, earlier⟩
        · exact new same
        · exact nobody id' entry' earlier here'
  · intro id' entry' c' found' here'
    rcases reads found' here' with ⟨_, new⟩ | ⟨_, old⟩
    · rw [new]
      exact Nat.lt_succ_self created
    · exact Nat.lt_succ_of_lt (owned.born id' entry' c' old here')
  · intro c' member
    exact Nat.lt_succ_of_lt (owned.freedBorn c' member)

/-- A new context that no session takes is freed. -/
theorem discard (owned : Owned sessions created freed) :
    Owned sessions (created + 1) (freed ++ [created]) where
  unique := owned.unique
  once c' before := by
    by_cases new : c' = created
    · subst new
      refine Or.inr ⟨fun id entry found here => ?_, ?_⟩
      · exact absurd (owned.born id entry _ found here) (Nat.lt_irrefl _)
      · have unseen : c' ∉ freed := fun member =>
          absurd (owned.freedBorn _ member) (Nat.lt_irrefl _)
        rw [List.count_append, List.count_eq_zero.mpr unseen]
        simp
    · have notLast : c' ∉ [created] := fun member => new (List.mem_singleton.mp member)
      rcases owned.once c' (by omega) with ⟨holder, alive⟩ | ⟨nobody, count⟩
      · refine Or.inl ⟨holder, ?_⟩
        rw [List.mem_append]
        exact fun member => member.elim alive notLast
      · refine Or.inr ⟨nobody, ?_⟩
        rw [List.count_append, count, List.count_eq_zero.mpr notLast]
  born id entry c' found here := Nat.lt_succ_of_lt (owned.born id entry c' found here)
  freedBorn c' member := by
    rcases List.mem_append.mp member with member | last
    · exact Nat.lt_succ_of_lt (owned.freedBorn c' member)
    · rw [List.mem_singleton.mp last]
      exact Nat.lt_succ_self created

end Owned

/-! ### The bytes of the cold list -/

/-- The size of the swap file of an entry. -/
def fileBytes (sessions : Sessions) (id : Int) : Nat :=
  match sessions id with
  | none => 0
  | some entry => entry.swapFileBytes.toNat

/-- The total size of the swap files of the sessions in a list. -/
def totalBytes (sessions : Sessions) (l : List (Node Int)) : Nat :=
  (l.map fun n => fileBytes sessions n.val).sum

theorem fileBytes_update (sessions : Sessions) (id id' : Int) (after : Option SessionMeta) :
    fileBytes (Function.update sessions id after) id' =
      if id' = id then fileBytes (fun _ => after) id' else fileBytes sessions id' := by
  by_cases same : id' = id
  · subst same
    rw [if_pos rfl, fileBytes, Function.update_self, fileBytes]
  · rw [if_neg same, fileBytes, Function.update_of_ne same, fileBytes]

theorem totalBytes_congr {sessions sessions' : Sessions} {l : List (Node Int)}
    (same : ∀ n ∈ l, fileBytes sessions' n.val = fileBytes sessions n.val) :
    totalBytes sessions' l = totalBytes sessions l := by
  unfold totalBytes
  rw [List.map_congr_left same]

theorem totalBytes_outside {sessions : Sessions} {l : List (Node Int)} {id : Int}
    (absent : id ∉ values l) (after : Option SessionMeta) :
    totalBytes (Function.update sessions id after) l = totalBytes sessions l := by
  refine totalBytes_congr fun n member => ?_
  rw [fileBytes_update, if_neg]
  exact fun same => absent (NodeList.mem_values.mpr ⟨n, member, same⟩)

theorem totalBytes_same {sessions : Sessions} {id : Int} {entry entry' : SessionMeta}
    (found : sessions id = some entry) (same : entry'.swapFileBytes = entry.swapFileBytes)
    (l : List (Node Int)) :
    totalBytes (Function.update sessions id (some entry')) l = totalBytes sessions l := by
  refine totalBytes_congr fun n _ => ?_
  rw [fileBytes_update]
  split
  · rename_i equal
    rw [equal, fileBytes, fileBytes, found]
    exact congrArg UInt64.toNat same
  · rfl

theorem totalBytes_erase (sessions : Sessions) {l : List (Node Int)} {node : Node Int}
    (inside : node ∈ l) :
    fileBytes sessions node.val + totalBytes sessions (l.erase node) = totalBytes sessions l :=
  NodeList.sum_erase (fun n => fileBytes sessions n.val) inside

theorem totalBytes_push (sessions : Sessions) (l : List (Node Int)) (node : Node Int) :
    totalBytes sessions (l ++ [node]) = totalBytes sessions l + fileBytes sessions node.val := by
  simp [totalBytes]

/-! ### The invariant -/

/-- The HOT sessions. -/
def IsHot (entry : SessionMeta) : Prop := entry.state = .HOT

/-- The COLD sessions with a swap file. -/
def IsSwapped (entry : SessionMeta) : Prop := entry.state = .COLD ∧ entry.swapFilePath ≠ []

/-- **The representation invariant.** -/
structure Rep {σ : Type} (w : World σ) : Prop where
  keyed : ∀ id entry, w.mSessions id = some entry → entry.id = id
  hot : Listed IsHot w.mSessions w.mHotLru w.nextNode
  cold : Listed IsSwapped w.mSessions w.mColdLru w.nextNode
  ctxHot : ∀ id entry, w.mSessions id = some entry → (entry.ctx.isSome = true ↔ IsHot entry)
  owned : Owned w.mSessions w.created w.freed
  total : w.mColdUsedBytes.toNat = totalBytes w.mSessions w.mColdLru % 2 ^ 64
  nobody : (-1 : Int) ∉ values w.mColdLru

namespace Rep

variable {σ : Type} {w : World σ}

theorem start (nCtx : Nat) (swapDir : Bytes) (llama : σ) : Rep (World.start nCtx swapDir llama) where
  keyed _ _ found := by cases found
  hot := Listed.empty
  cold := Listed.empty
  ctxHot _ _ found := by cases found
  owned := Owned.empty
  total := rfl
  nobody member := by cases member

theorem ctx_of_hot (rep : Rep w) {id : Int} {entry : SessionMeta}
    (found : w.mSessions id = some entry) (hot : entry.state = .HOT) : ∃ c, entry.ctx = some c :=
  Option.isSome_iff_exists.mp ((rep.ctxHot id entry found).mpr hot)

theorem ctx_of_cold (rep : Rep w) {id : Int} {entry : SessionMeta}
    (found : w.mSessions id = some entry) (cold : entry.state = .COLD) : entry.ctx = none := by
  rw [← Option.not_isSome_iff_eq_none, rep.ctxHot id entry found, IsHot, cold]
  exact fun same => by cases same

theorem ctxAt_of (_ : Rep w) {id : Int} {entry : SessionMeta}
    (found : w.mSessions id = some entry) : Owned.ctxAt w.mSessions id = entry.ctx := by
  rw [Owned.ctxAt, found, Option.bind_some]

theorem not_mem_hot_of_cold (rep : Rep w) {id : Int} {entry : SessionMeta}
    (found : w.mSessions id = some entry) (cold : entry.state = .COLD) :
    id ∉ values w.mHotLru := fun member => by
  have hot : entry.state = .HOT := rep.hot.holds_of_mem member found
  rw [cold] at hot
  cases hot

theorem not_mem_cold_of_hot (rep : Rep w) {id : Int} {entry : SessionMeta}
    (found : w.mSessions id = some entry) (hot : entry.state = .HOT) :
    id ∉ values w.mColdLru := fun member => by
  have cold := (rep.cold.holds_of_mem member found).1
  rw [hot] at cold
  cases cold

theorem not_mem_of_absent (rep : Rep w) {id : Int} (absent : w.mSessions id = none) :
    id ∉ values w.mHotLru ∧ id ∉ values w.mColdLru := by
  constructor
  · intro member
    obtain ⟨entry, found, _⟩ := (rep.hot.mem_values_iff id).mp member
    rw [absent] at found
    cases found
  · intro member
    obtain ⟨entry, found, _⟩ := (rep.cold.mem_values_iff id).mp member
    rw [absent] at found
    cases found

/-- What the invariant does not speak about may change. -/
theorem of_same {τ : Type} {w' : World τ} (rep : Rep w) (sessions : w'.mSessions = w.mSessions)
    (hot : w'.mHotLru = w.mHotLru) (cold : w'.mColdLru = w.mColdLru)
    (used : w'.mColdUsedBytes = w.mColdUsedBytes) (next : w'.nextNode = w.nextNode)
    (created : w'.created = w.created) (freed : w'.freed = w.freed) : Rep w' where
  keyed := by rw [sessions]; exact rep.keyed
  hot := by rw [sessions, hot, next]; exact rep.hot
  cold := by rw [sessions, cold, next]; exact rep.cold
  ctxHot := by rw [sessions]; exact rep.ctxHot
  owned := by rw [sessions, created, freed]; exact rep.owned
  total := by rw [used, sessions, cold]; exact rep.total
  nobody := by rw [cold]; exact rep.nobody

end Rep

end MiniV
