import Mathlib.Data.Int.Notation
import Mathlib.Data.Nat.Notation
import PaymentNode.Lib.Solo

/-!
# Locks — the advisory locks of the state directory

`withLocks` of the state store, one step for each call of the system: a lock is a file of the state directory,
opened, checked, locked through the kernel and checked again, and it is let go when its descriptor is closed.  Any
number of calls run at once and may die anywhere; strangers may lock, make, replace and remove the files that no call
has locked.  A call inside another call's action is one more call.  Where the code can throw or find its time over, a
call here may.
-/

namespace PaymentNode
namespace StateLocks

open Discipline

/-- A descriptor of one call. -/
abbrev Handle := ℕ
/-- A file by its device and its number. -/
abbrev Inode := ℕ
abbrev LockName := String

def rank (key : String) : ℤ :=
  if "profile:".toList.isPrefixOf key.toList then 0 else if "operation:".toList.isPrefixOf key.toList then 1 else 2

def compareLockKeys (localeCompare : String → String → ℤ) (left right : String) : ℤ :=
  if rank left - rank right ≠ 0 then rank left - rank right else localeCompare left right

def lockName (sha256 : String → String) (key : String) : LockName := sha256 ("lock\x00" ++ key) ++ ".lock"

/-- The files of `[...new Set(keys)].sort(compareLockKeys)`. -/
def lockNames (sha256 : String → String) (localeCompare : String → String → ℤ) (keys : List String) : List LockName :=
  (keys.eraseDups.mergeSort fun left right => compareLockKeys localeCompare left right ≤ 0).map (lockName sha256)

theorem mem_lockNames {sha256 : String → String} {localeCompare : String → String → ℤ} {key : String}
    {keys : List String} (h : key ∈ keys) : lockName sha256 key ∈ lockNames sha256 localeCompare keys := by
  apply List.mem_map_of_mem
  rw [List.mem_mergeSort, List.mem_eraseDups]
  exact h

/-! ## The kernel -/

/-- Who has the lock of a file: a descriptor of a call, or anything else, such as a helper that outlived its call. -/
inductive Holder (π : Type)
  | call (p : π) (handle : Handle)
  | stranger

structure Kernel (π : Type) where
  file : LockName → Option Inode
  opened : π → Handle → Option Inode
  locked : Inode → Option (Holder π)

variable {π δ β : Type} {A : β → Type} {ε : Type}

/-- Descriptors of `p` are closed, and their locks let go, to a helper that still has them or to nobody. -/
structure Released (p : π) (gone : Handle → Prop) (k k' : Kernel π) : Prop where
  file : k'.file = k.file
  others : ∀ q, q ≠ p → k'.opened q = k.opened q
  closed : ∀ handle, gone handle → k'.opened p handle = none
  kept : ∀ handle, ¬ gone handle → k'.opened p handle = k.opened p handle
  locked : ∀ inode, (∃ handle, gone handle ∧ k.locked inode = some (.call p handle) ∧
      (k'.locked inode = none ∨ k'.locked inode = some .stranger)) ∨
    ((∀ handle, gone handle → k.locked inode ≠ some (.call p handle)) ∧ k'.locked inode = k.locked inode)

/-- What else happens: strangers lock and unlock, and any lock file may be made, removed or replaced while no call
has its lock. -/
structure Elsewhere (k k' : Kernel π) : Prop where
  opened : k'.opened = k.opened
  locked : ∀ inode p handle, k'.locked inode = some (.call p handle) ↔ k.locked inode = some (.call p handle)
  file : ∀ name inode p handle, k.file name = some inode → k.locked inode = some (.call p handle) →
    k'.file name = some inode

/-! ## The calls -/

abbrev Held := List (LockName × Handle)

def names (held : Held) : List LockName := held.map Prod.fst

/-- One turn of the loop of `acquireLock`: the locks the call has, newest first, the lock it is after, and those that
come after it. -/
structure Turn where
  held : Held
  name : LockName
  keys : List LockName
  handle : Handle

/-- What a call does next. -/
inductive Phase
  /-- Opens the next lock file, or begins its action. -/
  | acquires (held : Held) (keys : List LockName)
  /-- Checks the file it opened (`validateOpenedLock`). -/
  | opens (turn : Turn)
  /-- Asks the kernel for the lock (`tryAcquire`). -/
  | tries (turn : Turn)
  /-- Has the lock, and reads its descriptor's file (`handle.stat`). -/
  | checks (turn : Turn)
  /-- Reads the file that has the lock's name (`lstat`). -/
  | compares (turn : Turn) (inode : Inode)
  /-- Closes the file, to try again. -/
  | closes (turn : Turn)
  /-- Closes the file, to throw. -/
  | fails (turn : Turn)
  | acts (held : Held)
  | releases (held : Held)

/-- What happens in the call alone. -/
inductive Moves : Phase → Phase → Prop
  | passes (t : Turn) : Moves (.opens t) (.tries t)
  | invalid (t : Turn) : Moves (.opens t) (.fails t)
  | busy (t : Turn) : Moves (.tries t) (.closes t)
  | refused (t : Turn) : Moves (.tries t) (.fails t)
  /-- The helper took the lock and did not say so. -/
  | unheard (t : Turn) : Moves (.checks t) (.closes t)
  | unread (t : Turn) : Moves (.checks t) (.fails t)
  | changed (t : Turn) (inode : Inode) : Moves (.compares t inode) (.fails t)
  | timedOut (held : Held) (keys : List LockName) : Moves (.acquires held keys) (.releases held)
  | enters (held : Held) : Moves (.acquires held []) (.acts held)

/-- The descriptor a call closes, and what it does then. -/
inductive Closes : Phase → Handle → Phase → Prop
  | again (t : Turn) : Closes (.closes t) t.handle (.acquires t.held (t.name :: t.keys))
  | failed (t : Turn) : Closes (.fails t) t.handle (.releases t.held)
  | released (lock : LockName × Handle) (held : Held) : Closes (.releases (lock :: held)) lock.2 (.releases held)

structure Call (β : Type) (A : β → Type) (ε : Type) where
  phase : Phase
  /-- What is left of the action. -/
  action : Prog β A ε Unit

structure World (π δ β : Type) (A : β → Type) (ε : Type) where
  kernel : Kernel π
  calls : π → Option (Call β A ε)
  /-- The locks that the last call of a process asked for. -/
  asked : π → List LockName
  data : δ

section Steps

variable [DecidableEq π]

def World.go (w : World π δ β A ε) (p : π) (phase : Phase) (action : Prog β A ε Unit) (kernel : Kernel π) :
    World π δ β A ε :=
  { w with kernel := kernel, calls := Function.update w.calls p (some ⟨phase, action⟩) }

/-- `entry` says which locks are asked for, and for which actions. -/
inductive Step (work : Solo.Exec β A δ) (entry : List LockName → Prog β A ε Unit → Prop) :
    World π δ β A ε → Option π → World π δ β A ε → Prop
  | begins (w : World π δ β A ε) (p : π) (keys : List LockName) (action : Prog β A ε Unit) :
      w.calls p = none → entry keys action →
      Step work entry w (some p) { w.go p (.acquires [] keys) action w.kernel with
        asked := Function.update w.asked p keys }
  | moves (w : World π δ β A ε) (p : π) (phase phase' : Phase) (action : Prog β A ε Unit) :
      w.calls p = some ⟨phase, action⟩ → Moves phase phase' →
      Step work entry w (some p) (w.go p phase' action w.kernel)
  | opens (w : World π δ β A ε) (p : π) (t : Turn) (inode : Inode) (action : Prog β A ε Unit) :
      w.calls p = some ⟨.acquires t.held (t.name :: t.keys), action⟩ → w.kernel.opened p t.handle = none →
      (∀ i, w.kernel.file t.name = some i → i = inode) →
      Step work entry w (some p) (w.go p (.opens t) action { w.kernel with
        file := Function.update w.kernel.file t.name (some inode)
        opened := Function.update w.kernel.opened p (Function.update (w.kernel.opened p) t.handle (some inode)) })
  | locks (w : World π δ β A ε) (p : π) (t : Turn) (inode : Inode) (action : Prog β A ε Unit) :
      w.calls p = some ⟨.tries t, action⟩ → w.kernel.opened p t.handle = some inode →
      (w.kernel.locked inode = none ∨ w.kernel.locked inode = some (.call p t.handle)) →
      Step work entry w (some p) (w.go p (.checks t) action { w.kernel with
        locked := Function.update w.kernel.locked inode (some (.call p t.handle)) })
  | stats (w : World π δ β A ε) (p : π) (t : Turn) (inode : Inode) (action : Prog β A ε Unit) :
      w.calls p = some ⟨.checks t, action⟩ → w.kernel.opened p t.handle = some inode →
      Step work entry w (some p) (w.go p (.compares t inode) action w.kernel)
  | acquired (w : World π δ β A ε) (p : π) (t : Turn) (inode : Inode) (action : Prog β A ε Unit) :
      w.calls p = some ⟨.compares t inode, action⟩ → w.kernel.file t.name = some inode →
      Step work entry w (some p) (w.go p (.acquires ((t.name, t.handle) :: t.held) t.keys) action w.kernel)
  | closes (w : World π δ β A ε) (p : π) (phase phase' : Phase) (handle : Handle) (kernel : Kernel π)
      (action : Prog β A ε Unit) : w.calls p = some ⟨phase, action⟩ → Closes phase handle phase' →
      Released p (· = handle) w.kernel kernel → Step work entry w (some p) (w.go p phase' action kernel)
  | works (w : World π δ β A ε) (p : π) (held : Held) (b : β) (k : A b → Prog β A ε Unit) (answer : A b) (d : δ) :
      w.calls p = some ⟨.acts held, .op b k⟩ → work w.data b answer d →
      Step work entry w (some p) { w.go p (.acts held) (k answer) w.kernel with data := d }
  | ends (w : World π δ β A ε) (p : π) (held : Held) (action : Prog β A ε Unit) :
      w.calls p = some ⟨.acts held, action⟩ → (∀ b k, action ≠ .op b k) →
      Step work entry w (some p) (w.go p (.releases held) action w.kernel)
  | leaves (w : World π δ β A ε) (p : π) (action : Prog β A ε Unit) : w.calls p = some ⟨.releases [], action⟩ →
      Step work entry w (some p) { w with calls := Function.update w.calls p none }
  | dies (w : World π δ β A ε) (p : π) (kernel : Kernel π) : Released p (fun _ => True) w.kernel kernel →
      Step work entry w (some p) { w with kernel := kernel, calls := Function.update w.calls p none }
  | elsewhere (w : World π δ β A ε) (kernel : Kernel π) : Elsewhere w.kernel kernel →
      Step work entry w none { w with kernel := kernel }

end Steps

/-! ## What a call has -/

def Locks (k : Kernel π) (p : π) (handle : Handle) (inode : Inode) : Prop :=
  k.opened p handle = some inode ∧ k.locked inode = some (.call p handle)

/-- A call has the lock of the file that now has the lock's name. -/
def Holds (k : Kernel π) (p : π) (lock : LockName × Handle) : Prop :=
  ∃ inode, Locks k p lock.2 inode ∧ k.file lock.1 = some inode

def Turn.Ok (k : Kernel π) (p : π) (t : Turn) : Prop := ∀ lock ∈ t.held, Holds k p lock ∧ lock.2 ≠ t.handle

def PhaseOk (k : Kernel π) (p : π) : Phase → Prop
  | .acquires held _ | .acts held => ∀ lock ∈ held, Holds k p lock
  | .opens t | .tries t | .closes t | .fails t => t.Ok k p
  | .checks t => t.Ok k p ∧ ∃ inode, Locks k p t.handle inode
  | .compares t inode => t.Ok k p ∧ Locks k p t.handle inode
  | .releases _ => True

/-- Of the locks a call asked for, each is one it has or is still to get before its action. -/
def Phase.Covers (asked : List LockName) : Phase → Prop
  | .acquires held keys => asked ⊆ names held ++ keys
  | .opens t | .tries t | .checks t | .compares t _ | .closes t => asked ⊆ names t.held ++ t.name :: t.keys
  | .acts held => asked ⊆ names held
  | .fails _ | .releases _ => True

variable {k k' : Kernel π} {p q : π} {gone : Handle → Prop} {ph ph' : Phase} {handle : Handle}

theorem Holds.unique {name : LockName} {handle handle' : Handle} (hp : Holds k p (name, handle))
    (hq : Holds k q (name, handle')) : p = q := by
  rcases hp with ⟨inode, ⟨_, hlocked⟩, hfile⟩
  rcases hq with ⟨inode', ⟨_, hlocked'⟩, hfile'⟩
  have hsame : inode' = inode := Option.some.inj (hfile'.symm.trans hfile)
  rw [hsame, hlocked] at hlocked'
  cases hlocked'
  rfl

/-- What a step leaves of `p`'s locks: all but those of the descriptors that are gone. -/
structure Leaves (p : π) (gone : Handle → Prop) (k k' : Kernel π) : Prop where
  opened : ∀ handle, ¬ gone handle → k'.opened p handle = k.opened p handle
  locked : ∀ inode handle, ¬ gone handle → k.locked inode = some (.call p handle) →
    k'.locked inode = some (.call p handle) ∧ ∀ name, k.file name = some inode → k'.file name = some inode

abbrev Untouched (p : π) : Kernel π → Kernel π → Prop := Leaves p fun _ => False

theorem Leaves.locks {inode : Inode} (h : Leaves p gone k k') (hgone : ¬ gone handle)
    (hlocks : Locks k p handle inode) : Locks k' p handle inode :=
  ⟨(h.opened handle hgone).trans hlocks.1, (h.locked inode handle hgone hlocks.2).1⟩

theorem Leaves.holds {lock : LockName × Handle} (h : Leaves p gone k k') (hgone : ¬ gone lock.2)
    (hholds : Holds k p lock) : Holds k' p lock := by
  rcases hholds with ⟨inode, hlocks, hfile⟩
  exact ⟨inode, h.locks hgone hlocks, (h.locked inode lock.2 hgone hlocks.2).2 _ hfile⟩

theorem Leaves.phaseOk (h : Untouched p k k') (hphase : PhaseOk k p ph) : PhaseOk k' p ph := by
  have hturn : ∀ t : Turn, t.Ok k p → t.Ok k' p := fun t ht lock hlock =>
    ⟨h.holds id (ht lock hlock).1, (ht lock hlock).2⟩
  cases ph with
  | acquires held _ | acts held => exact fun lock hlock => h.holds id (hphase lock hlock)
  | opens t | tries t | closes t | fails t => exact hturn t hphase
  | checks t =>
    rcases hphase with ⟨ht, inode, hlocks⟩
    exact ⟨hturn t ht, inode, h.locks id hlocks⟩
  | compares t inode => exact ⟨hturn t hphase.1, h.locks id hphase.2⟩
  | releases _ => trivial

theorem Leaves.untouched (h : Leaves q (fun handle => q = p ∧ gone handle) k k') (hq : q ≠ p) : Untouched q k k' :=
  ⟨fun handle _ => h.opened handle fun hgone => hq hgone.1, fun inode handle _ =>
    h.locked inode handle fun hgone => hq hgone.1⟩

theorem Released.leaves (h : Released p gone k k') (q : π) : Leaves q (fun handle => q = p ∧ gone handle) k k' := by
  constructor
  · intro handle hgone
    by_cases hq : q = p
    · rw [hq]
      exact h.kept handle fun hg => hgone ⟨hq, hg⟩
    · rw [h.others q hq]
  · intro inode handle hgone hlocked
    refine ⟨?_, fun name hname => by rw [h.file]; exact hname⟩
    rcases h.locked inode with ⟨handle', hgone', hlocked', _⟩ | ⟨_, hsame⟩
    · rw [hlocked] at hlocked'
      cases hlocked'
      exact absurd ⟨rfl, hgone'⟩ hgone
    · rw [hsame]
      exact hlocked

theorem Elsewhere.untouched (h : Elsewhere k k') : Untouched p k k' :=
  ⟨fun handle _ => by rw [h.opened], fun inode handle _ hlocked =>
    ⟨(h.locked inode p handle).mpr hlocked, fun name hname => h.file name inode p handle hname hlocked⟩⟩

-- The kernel gives a lock that nobody else has.
theorem untouched_lock {inode : Inode} (hfree : k.locked inode = none ∨ k.locked inode = some (.call p handle))
    (q : π) : Untouched q k { k with locked := Function.update k.locked inode (some (.call p handle)) } := by
  refine ⟨fun _ _ => rfl, fun i h _ hlocked => ⟨?_, fun _ hn => hn⟩⟩
  by_cases hi : i = inode
  · rw [hi] at hlocked ⊢
    rcases hfree with hfree | hfree <;> rw [hlocked] at hfree
    · cases hfree
    · rw [← hfree]
      exact Function.update_self _ _ _
  · exact (Function.update_of_ne hi _ _).trans hlocked

theorem untouched_refl (q : π) : Untouched q k k := ⟨fun _ _ => rfl, fun _ _ _ h => ⟨h, fun _ h => h⟩⟩

theorem Moves.ok (h : Moves ph ph') (hphase : PhaseOk k p ph) : PhaseOk k p ph' := by
  cases h with
  | passes t | invalid t | busy t | refused t | enters held => exact hphase
  | unheard t | unread t | changed t inode => exact hphase.1
  | timedOut held keys => trivial

theorem Closes.ok (h : Closes ph handle ph') (hphase : PhaseOk k p ph)
    (hleaves : Leaves p (fun h => p = p ∧ h = handle) k k') : PhaseOk k' p ph' := by
  cases h with
  | again t =>
    intro lock hlock
    exact hleaves.holds (fun hgone => (hphase lock hlock).2 hgone.2) (hphase lock hlock).1
  | failed t | released lock held => trivial

theorem Moves.covers {asked : List LockName} (h : Moves ph ph') (hcovers : ph.Covers asked) : ph'.Covers asked := by
  cases h with
  | passes t | busy t | unheard t => exact hcovers
  | invalid t | refused t | unread t | changed t inode | timedOut held keys => trivial
  | enters held => rwa [Phase.Covers, List.append_nil] at hcovers

theorem Closes.covers {asked : List LockName} (h : Closes ph handle ph') (hcovers : ph.Covers asked) :
    ph'.Covers asked := by
  cases h with
  | again t => exact hcovers
  | failed t | released lock held => trivial

variable [DecidableEq π]

-- Opening a file makes the one that is missing, and no lock is of a descriptor that was not open.
theorem leaves_open {name : LockName} {inode : Inode} (handle : Handle)
    (hfile : ∀ i, k.file name = some i → i = inode) (q : π) :
    Leaves q (fun h => q = p ∧ h = handle) k { k with
      file := Function.update k.file name (some inode)
      opened := Function.update k.opened p (Function.update (k.opened p) handle (some inode)) } := by
  constructor
  · intro h hgone
    by_cases hq : q = p
    · rw [hq]
      show Function.update k.opened p _ p h = k.opened p h
      rw [Function.update_self, Function.update_of_ne (fun heq => hgone ⟨hq, heq⟩)]
    · exact congrFun (Function.update_of_ne hq _ _) h
  · intro i h _ hlocked
    refine ⟨hlocked, fun n hn => ?_⟩
    by_cases hname : n = name
    · rw [hname] at hn ⊢
      rw [hfile i hn]
      exact Function.update_self _ _ _
    · exact (Function.update_of_ne hname _ _).trans hn

/-! ## Runs -/

variable {work : Solo.Exec β A δ} {entry : List LockName → Prog β A ε Unit → Prop} {w w' : World π δ β A ε}
  {action : Prog β A ε Unit} {l : Option π}

/-- Every call has the locks of its phase, and forgets none that it asked for. -/
def Kept (w : World π δ β A ε) : Prop :=
  ∀ p c, w.calls p = some c → PhaseOk w.kernel p c.phase ∧ c.phase.Covers (w.asked p)

theorem calls_go {c : Call β A ε} (h : (w.go p ph action k).calls q = some c) :
    q = p ∧ c = ⟨ph, action⟩ ∨ q ≠ p ∧ w.calls q = some c := by
  by_cases hq : q = p
  · rw [hq] at h
    exact .inl ⟨hq, (Option.some.inj ((Function.update_self p _ w.calls).symm.trans h)).symm⟩
  · exact .inr ⟨hq, (Function.update_of_ne hq _ w.calls).symm.trans h⟩

theorem Kept.go (hw : Kept w) (hothers : ∀ q, q ≠ p → Untouched q w.kernel k)
    (hmine : PhaseOk k p ph ∧ ph.Covers (w.asked p)) : Kept (w.go p ph action k) := by
  intro q c hc
  rcases calls_go hc with ⟨rfl, rfl⟩ | ⟨hq, hc⟩
  · exact hmine
  · exact ⟨(hothers q hq).phaseOk (hw q c hc).1, (hw q c hc).2⟩

theorem calls_left {c : Call β A ε} (h : Function.update w.calls p none q = some c) : q ≠ p ∧ w.calls q = some c := by
  by_cases hq : q = p
  · rw [hq, Function.update_self] at h
    cases h
  · exact ⟨hq, (Function.update_of_ne hq none w.calls).symm.trans h⟩

theorem kept_left (hw : Kept w) (hothers : ∀ q, q ≠ p → Untouched q w.kernel k) :
    Kept { w with kernel := k, calls := Function.update w.calls p none } := by
  intro q c hc
  rcases calls_left hc with ⟨hq, hc⟩
  exact ⟨(hothers q hq).phaseOk (hw q c hc).1, (hw q c hc).2⟩

theorem kept_step (hw : Kept w) (h : Step work entry w l w') : Kept w' := by
  have hsame : ∀ p q : π, q ≠ p → Untouched q w.kernel w.kernel := fun _ q _ => untouched_refl q
  cases h with
  | begins p keys action _ _ =>
    intro q c hc
    show PhaseOk w.kernel q c.phase ∧ c.phase.Covers (Function.update w.asked p keys q)
    rcases calls_go (k := w.kernel) hc with ⟨rfl, rfl⟩ | ⟨hq, hc⟩
    · rw [Function.update_self]
      exact ⟨fun _ h => (nomatch h), List.Subset.refl keys⟩
    · rw [Function.update_of_ne hq]
      exact hw q c hc
  | moves p ph ph' action hcall hmoves =>
    rcases hw p _ hcall with ⟨hok, hcovers⟩
    exact hw.go (hsame p) ⟨hmoves.ok hok, hmoves.covers hcovers⟩
  | opens p t inode action hcall hclosed hfile =>
    rcases hw p _ hcall with ⟨hheld, hcovers⟩
    have hleaves := leaves_open (k := w.kernel) (p := p) t.handle hfile
    apply hw.go
    · exact fun q hq => (hleaves q).untouched hq
    · refine ⟨fun lock hlock => ?_, hcovers⟩
      -- The new handle was closed, so it is no held lock's.
      have hne : lock.2 ≠ t.handle := by
        intro heq
        rcases hheld lock hlock with ⟨_, ⟨hopened, _⟩, _⟩
        rw [heq, hclosed] at hopened
        cases hopened
      exact ⟨(hleaves p).holds (fun hgone => hne hgone.2) (hheld lock hlock), hne⟩
  | locks p t inode action hcall hopened hfree =>
    have hlock := untouched_lock (k := w.kernel) hfree
    have hturn : PhaseOk w.kernel p (.tries t) := (hw p _ hcall).1
    exact hw.go (fun q _ => hlock q)
      ⟨⟨(hlock p).phaseOk hturn, inode, hopened, Function.update_self _ _ _⟩, (hw p _ hcall).2⟩
  | stats p t inode action hcall hopened =>
    rcases hw p _ hcall with ⟨hok, hcovers⟩
    rcases hok with ⟨ht, inode', hlocks⟩
    have hinode : inode' = inode := Option.some.inj (hlocks.1.symm.trans hopened)
    rw [hinode] at hlocks
    exact hw.go (hsame p) ⟨⟨ht, hlocks⟩, hcovers⟩
  | acquired p t inode action hcall hfile =>
    rcases hw p _ hcall with ⟨hok, hcovers⟩
    rcases hok with ⟨ht, hlocks⟩
    -- The file still names the inode that was locked, so the lock joins those held.
    refine hw.go (hsame p) ⟨?_, fun name hname => List.perm_middle.subset (hcovers hname)⟩
    rintro lock (_ | ⟨_, hlock⟩)
    · exact ⟨inode, hlocks, hfile⟩
    · exact (ht lock hlock).1
  | closes p ph ph' handle kernel action hcall hcloses hreleased =>
    rcases hw p _ hcall with ⟨hok, hcovers⟩
    exact hw.go (fun q hq => (hreleased.leaves q).untouched hq)
      ⟨hcloses.ok hok (hreleased.leaves p), hcloses.covers hcovers⟩
  | works p held b k answer d hcall _ =>
    have hkept : Kept (w.go p (.acts held) (k answer) w.kernel) := hw.go (hsame p) (hw p _ hcall)
    exact hkept
  | ends p held action _ _ => exact hw.go (hsame p) ⟨trivial, trivial⟩
  | leaves p action _ => exact kept_left hw (hsame p)
  | dies p kernel hreleased => exact kept_left hw fun q hq => (hreleased.leaves q).untouched hq
  | elsewhere kernel helse => exact fun q c hc => ⟨helse.untouched.phaseOk (hw q c hc).1, (hw q c hc).2⟩

/-- The locks that the call of a process asked for, while its action runs. -/
def World.inside (w : World π δ β A ε) (p : π) : List LockName :=
  match w.calls p with
  | some ⟨.acts _, _⟩ => w.asked p
  | _ => []

omit [DecidableEq π] in
theorem Kept.inside (hw : Kept w) {name : LockName} (h : name ∈ w.inside p) :
    ∃ handle, Holds w.kernel p (name, handle) := by
  unfold World.inside at h
  split at h
  · rename_i held action hcall
    rcases List.mem_map.mp ((hw p _ hcall).2 h) with ⟨lock, hlock, rfl⟩
    exact ⟨lock.2, (hw p _ hcall).1 lock hlock⟩
  · cases h

omit [DecidableEq π] in
theorem Kept.unique (hw : Kept w) {name : LockName} (hp : name ∈ w.inside p) (hq : name ∈ w.inside q) : p = q := by
  rcases hw.inside hp with ⟨_, hholds⟩
  rcases hw.inside hq with ⟨_, hholds'⟩
  exact hholds.unique hholds'

/-- **Locks exclude**: whatever the calls ask for, however their steps, their deaths and the strangers' interleave, a
call whose action runs has the lock of the file that now has the name, for every name it asked for, and no other
call's action runs under one of them. -/
theorem withLocks_excludes {labels : List (Option π)} (hstart : ∀ p, w.calls p = none)
    (hrun : Runs.Run (Step work entry) w labels w') :
    (∀ p, ∀ name ∈ w'.inside p, ∃ handle, Holds w'.kernel p (name, handle)) ∧
      ∀ p q name, name ∈ w'.inside p → name ∈ w'.inside q → p = q := by
  have hkept : Kept w' := hrun.invariant (fun p c hc => by rw [hstart p] at hc; cases hc)
    fun _ _ _ => kept_step
  exact ⟨fun p name => hkept.inside, fun p q name => hkept.unique⟩

/-! ## The data that one lock guards -/

variable {I : δ → Prop} {guard : LockName}

/-- What is left of an action keeps the invariant when it runs alone, from where the data is. -/
abbrev Alone (work : Solo.Exec β A δ) (I : δ → Prop) (action : Prog β A ε Unit) (d : δ) : Prop :=
  (undisturbed I).wp (Solo.system work) () action (fun _ _ => True) (fun _ _ => True) d

/-- What a call still does to the data, it may do alone. -/
def Ready (work : Solo.Exec β A δ) (I : δ → Prop) (d : δ) (c : Call β A ε) : Prop :=
  match c.phase with
  | .acts _ => Alone work I c.action d
  | .fails _ | .releases _ => True
  | _ => ∀ d, I d → Alone work I c.action d

omit [DecidableEq π] in
theorem Moves.ready {d : δ} (h : Moves ph ph') (hd : I d) (hready : Ready work I d ⟨ph, action⟩) :
    Ready work I d ⟨ph', action⟩ := by
  cases h with
  | passes t | busy t | unheard t => exact hready
  | invalid t | refused t | unread t | changed t inode | timedOut held keys => trivial
  | enters held => exact hready d hd

omit [DecidableEq π] in
theorem Closes.ready {d : δ} (h : Closes ph handle ph') (hready : Ready work I d ⟨ph, action⟩) :
    Ready work I d ⟨ph', action⟩ := by
  cases h with
  | again t => exact hready
  | failed t | released lock held => trivial

structure Safe (work : Solo.Exec β A δ) (I : δ → Prop) (guard : LockName) (w : World π δ β A ε) : Prop where
  kept : Kept w
  data : I w.data
  /-- Every call asked for the lock that guards the data. -/
  ready : ∀ p c, w.calls p = some c → guard ∈ w.asked p ∧ Ready work I w.data c

theorem ready_go (hw : Safe work I guard w) (hready : guard ∈ w.asked p ∧ Ready work I w.data ⟨ph, action⟩) :
    ∀ q c, (w.go p ph action k).calls q = some c → guard ∈ w.asked q ∧ Ready work I w.data c := by
  intro q c hc
  rcases calls_go hc with ⟨rfl, rfl⟩ | ⟨_, hc⟩
  · exact hready
  · exact hw.ready q c hc

theorem ready_left (hw : Safe work I guard w) :
    ∀ q c, Function.update w.calls p none q = some c → guard ∈ w.asked q ∧ Ready work I w.data c :=
  fun q c hc => hw.ready q c (calls_left hc).2

theorem safe_step (hentry : ∀ keys action, entry keys action → guard ∈ keys ∧ ∀ d, I d → Alone work I action d)
    (hw : Safe work I guard w) (h : Step work entry w l w') : Safe work I guard w' := by
  have hkept := kept_step hw.kept h
  cases h with
  | begins p keys action _ hasked =>
    refine ⟨hkept, hw.data, ?_⟩
    intro q c hc
    show guard ∈ Function.update w.asked p keys q ∧ _
    rcases calls_go (k := w.kernel) hc with ⟨rfl, rfl⟩ | ⟨hq, hc⟩
    · rw [Function.update_self]
      exact hentry keys action hasked
    · rw [Function.update_of_ne hq]
      exact hw.ready q c hc
  | moves p ph ph' action hcall hmoves =>
    rcases hw.ready p _ hcall with ⟨hguard, hready⟩
    exact ⟨hkept, hw.data, ready_go hw ⟨hguard, hmoves.ready hw.data hready⟩⟩
  | closes p ph ph' handle kernel action hcall hcloses _ =>
    rcases hw.ready p _ hcall with ⟨hguard, hready⟩
    exact ⟨hkept, hw.data, ready_go hw ⟨hguard, hcloses.ready hready⟩⟩
  | opens p t inode action hcall | locks p t inode action hcall | stats p t inode action hcall
  | acquired p t inode action hcall =>
    have hready := hw.ready p _ hcall
    exact ⟨hkept, hw.data, ready_go hw hready⟩
  | works p held b k answer d hcall hwork =>
    rcases hw.ready p _ hcall with ⟨hguard, halone⟩
    rcases halone _ Relation.ReflTransGen.refl answer d hwork with ⟨hkeeps, hrest⟩
    refine ⟨hkept, hkeeps.1, ?_⟩
    intro q c hc
    rcases calls_go (w := w) (k := w.kernel) hc with ⟨rfl, rfl⟩ | ⟨hq, hc⟩
    · exact ⟨hguard, hrest⟩
    · rcases c with ⟨ph, action⟩
      have hready := hw.ready q _ hc
      cases ph with
      | acts held' =>
        -- No other call's action runs: it would have the lock that guards the data.
        have hinside : w.inside p = w.asked p := by simp only [World.inside, hcall]
        have hinside' : w.inside q = w.asked q := by simp only [World.inside, hc]
        exact absurd (hw.kept.unique (by rw [hinside']; exact hready.1) (by rw [hinside]; exact hguard)) hq
      | _ => exact hready
  | ends p held action hcall _ =>
    exact ⟨hkept, hw.data, ready_go hw ⟨(hw.ready p _ hcall).1, trivial⟩⟩
  | leaves p | dies p => exact ⟨hkept, hw.data, ready_left hw⟩
  | elsewhere kernel _ => exact ⟨hkept, hw.data, hw.ready⟩

/-- **Locks serialize**: what programs keep that run one after another and may die between any two steps, they keep
when any number of calls run them behind the lock of one key. -/
theorem withLocks_serializes {sha256 : String → String} {localeCompare : String → String → ℤ} {key : String}
    {labels : List (Option π)} (hstart : ∀ p, w.calls p = none) (hdata : I w.data)
    (hrun : Runs.Run (Step work fun locks action => ∃ keys, locks = lockNames sha256 localeCompare keys ∧ key ∈ keys ∧
      Solo.Triple work I (fun _ => True) action (fun _ _ => True) fun _ _ => True) w labels w') : I w'.data := by
  have hsafe : Safe work I (lockName sha256 key) w' := by
    have hnone : ∀ p c, w.calls p ≠ some c := fun p c hc => nomatch (hstart p).symm.trans hc
    apply hrun.invariant (I := Safe work I (lockName sha256 key))
    · exact ⟨fun p c hc => (hnone p c hc).elim, hdata, fun p c hc => (hnone p c hc).elim⟩
    · intro _ _ _ hw hstep
      refine safe_step ?_ hw hstep
      rintro _ action ⟨keys, rfl, hkey, htriple⟩
      exact ⟨mem_lockNames hkey, fun d hd => htriple d hd trivial⟩
  exact hsafe.data

/-! ## A check and an act behind one lock -/

namespace SpendRun

inductive SpendOp
  | read
  | add

abbrev Answer : SpendOp → Type
  | .read => ℕ
  | .add => Unit

def spend : Solo.Exec SpendOp Answer ℕ := fun s o answer t =>
  match o with
  | .read => answer = s ∧ t = s
  | .add => t = s + 1

/-- Spends one while less than ten are spent. -/
def spendOne : Prog SpendOp Answer Unit Unit :=
  .op .read fun (seen : ℕ) => if seen < 10 then .op .add fun _ => .ret () else .ret ()

theorem spendOne_alone : Solo.Triple spend (· ≤ 10) (fun _ => True) spendOne (fun _ _ => True) fun _ _ => True := by
  intro s hs _ s' hrely seen t hread
  have hsame : s' = s := undisturbed_refl hrely
  rcases hread with ⟨rfl, rfl⟩
  rw [hsame]
  refine ⟨⟨hs, fun q hq => absurd rfl hq⟩, ?_⟩
  dsimp only
  split
  · rename_i hlt
    intro u hrely' _ v hadd
    have hu : u = s := undisturbed_refl hrely'
    have hv : v = u + 1 := hadd
    have hle : v ≤ 10 := by omega
    exact ⟨⟨hle, fun q hq => absurd rfl hq⟩, trivial⟩
  · trivial

def start : World Bool ℕ SpendOp Answer Unit := ⟨⟨fun _ => none, fun _ _ => none, fun _ => none⟩, fun _ => none, fun _ => [], 3⟩

def Asks (locks : List LockName) (action : Prog SpendOp Answer Unit Unit) : Prop :=
  ∃ keys, locks = lockNames id (fun _ _ => 0) keys ∧ "profile:p" ∈ keys ∧
    Solo.Triple spend (· ≤ 10) (fun _ => True) action (fun _ _ => True) fun _ _ => True

def name : LockName := lockName id "profile:p"

theorem asks : Asks [name] spendOne :=
  ⟨["profile:p"], by simp [lockNames, name, List.eraseDups_cons], by simp, spendOne_alone⟩

-- One call gets the lock, and its action has begun.
theorem run_inside : ∃ labels w,
    Runs.Run (Step spend Asks) start labels w ∧ w.inside true = [name] ∧ w.data = 4 :=
  ⟨_, _, ((((((((Runs.Run.refl.snoc (Step.begins start true [name] spendOne rfl asks)).snoc
    (.opens _ true ⟨[], name, [], 0⟩ 7 spendOne rfl rfl fun i (h : none = some i) => nomatch h)).snoc
    (.moves _ true _ _ spendOne rfl (.passes _))).snoc
    (.locks _ true _ 7 spendOne rfl rfl (.inl rfl))).snoc
    (.stats _ true _ 7 spendOne rfl rfl)).snoc
    (.acquired _ true _ 7 spendOne rfl rfl)).snoc
    (.moves _ true _ _ spendOne rfl (.enters _))).snoc
    (.works _ true _ .read _ (3 : ℕ) 3 rfl ⟨rfl, rfl⟩)).snoc
    (.works _ true _ .add _ () 4 rfl (by rfl)), rfl, rfl⟩

theorem withLocks_excludes_of_run : ∃ w : World Bool ℕ SpendOp Answer Unit, w.data = 4 ∧
    (∃ handle, Holds w.kernel true (name, handle)) ∧ ∀ p, name ∈ w.inside p → p = true := by
  rcases run_inside with ⟨labels, w, hrun, hinside, hdata⟩
  have hname : name ∈ w.inside true := by
    rw [hinside]
    exact List.mem_cons_self
  rcases withLocks_excludes (fun _ => rfl) hrun with ⟨hholds, hunique⟩
  exact ⟨w, hdata, hholds true name hname, fun p hp => hunique p true name hp hname⟩

theorem withLocks_serializes_of_run : ∃ w : World Bool ℕ SpendOp Answer Unit, w.data = 4 ∧ w.data ≤ 10 := by
  rcases run_inside with ⟨labels, w, hrun, _, hdata⟩
  exact ⟨w, hdata, withLocks_serializes (I := (· ≤ 10)) (fun _ => rfl) (by decide) hrun⟩

end SpendRun

end StateLocks
end PaymentNode
