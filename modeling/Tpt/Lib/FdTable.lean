import Mathlib.Algebra.BigOperators.Group.Finset.Basic
import Mathlib.Algebra.BigOperators.Option
import Mathlib.Data.Finset.Card
import Mathlib.Tactic

/-!
The descriptor table of a process whose numbers are given out again once they
are closed.

Each holder keeps books of the descriptors that it opened and has not closed.
Holders that name only what stands in their own books never reach a file of
another holder, whatever numbers the kernel chooses.
-/

namespace Tpt

universe u v

/-- The open file behind each descriptor. -/
abbrev FdTable (File : Type u) := Nat → Option File

/-- A call, with the descriptors that it creates, that it is given, or that it
closes, and the files that the caller means by them. -/
inductive FdCall (File : Type u) where
  | opens (created : List (Nat × File))
  | uses (given : List (Nat × File))
  | closes (fd : Nat) (file : File)

variable {File : Type u} {Holder : Type v}

def FdCall.names : FdCall File → List (Nat × File)
  | opens _ => []
  | uses given => given
  | closes fd file => [(fd, file)]

namespace FdTable

def install (table : FdTable File) : List (Nat × File) → FdTable File
  | [] => table
  | (fd, file) :: rest => Function.update (install table rest) fd (some file)

/-- The kernel creates descriptors that are below the limit and not open, in
any order, and closes whatever file a number stands for. -/
inductive Answers (limit : Nat) : FdTable File → FdCall File → FdTable File → Prop where
  | opens {table created} :
      (created.map Prod.fst).Nodup →
      (∀ fd ∈ created.map Prod.fst, fd < limit ∧ table fd = none) →
      Answers limit table (.opens created) (install table created)
  | uses {table given} : Answers limit table (.uses given) table
  | closes {table fd file} :
      Answers limit table (.closes fd file) (Function.update table fd none)

/-- What a call of a holder does to its books: it creates files that are its
own and new, and is given or closes only descriptors that it holds. -/
inductive Books (owner : File → Holder) (holder : Holder) :
    FdCall File → List (Nat × File) → List (Nat × File) → Prop where
  | opens {created before after} :
      (created.map Prod.snd).Nodup →
      (∀ file ∈ created.map Prod.snd, owner file = holder ∧ file ∉ before.map Prod.snd) →
      after.Perm (created ++ before) → Books owner holder (.opens created) before after
  | uses {given before after} :
      given ⊆ before → after.Perm before → Books owner holder (.uses given) before after
  | closes {fd file before after} :
      before.Perm ((fd, file) :: after) → Books owner holder (.closes fd file) before after

/-- The open files are those in the books of their owners, each there once. -/
structure Owned (limit : Nat) (owner : File → Holder) (table : FdTable File)
    (holds : Holder → List (Nat × File)) : Prop where
  opened : ∀ fd file, table fd = some file ↔ (fd, file) ∈ holds (owner file)
  own : ∀ holder fd file, (fd, file) ∈ holds holder → owner file = holder
  single : ∀ holder, ((holds holder).map Prod.snd).Nodup
  within : ∀ holder fd file, (fd, file) ∈ holds holder → fd < limit

/-- A server process when it comes to its accept loop: the listening socket, the
descriptors that were open before it, and the limit on their numbers. -/
structure Process where
  listener : Nat
  inherited : List Nat
  limit : Nat
  distinct : (listener :: inherited).Nodup
  within : ∀ fd ∈ listener :: inherited, fd < limit

def Process.opened (process : Process) (listening : File) (inherits : Nat → File) :
    List (Nat × File) :=
  (process.listener, listening) :: process.inherited.map fun fd => (fd, inherits fd)

def Process.table (process : Process) (listening : File) (inherits : Nat → File) : FdTable File :=
  install (fun _ => none) (process.opened listening inherits)

/-- The books of a process whose other holders are its sessions, by number. -/
def serverBooks (opened : List (Nat × File)) (sessions : Nat → List (Nat × File)) :
    Option Nat → List (Nat × File)
  | none => opened
  | some number => sessions number

def openCount (limit : Nat) (table : FdTable File) : Nat :=
  ((Finset.range limit).filter fun fd => (table fd).isSome).card

section Tables

variable {limit : Nat} {owner : File → Holder} {table after : FdTable File}
variable {holds : Holder → List (Nat × File)} {holder : Holder} {call : FdCall File}
variable {now : List (Nat × File)} {fd : Nat} {file : File}

theorem install_eq_some
    {created : List (Nat × File)} (distinct : (created.map Prod.fst).Nodup)
    (free : ∀ fd ∈ created.map Prod.fst, table fd = none) :
    table.install created fd = some file ↔ (fd, file) ∈ created ∨ table fd = some file := by
  induction created with
  | nil => simp [install]
  | cons entry rest inductionHypothesis =>
      obtain ⟨new, opened⟩ := entry
      obtain ⟨absent, distinct⟩ := List.nodup_cons.mp distinct
      have earlier := inductionHypothesis distinct fun fd member =>
        free fd (List.mem_cons_of_mem _ member)
      by_cases same : fd = new
      · subst same
        have closed := free fd List.mem_cons_self
        have others : (fd, file) ∉ rest := fun member =>
          absent (List.mem_map.mpr ⟨_, member, rfl⟩)
        simp [install, closed, others, eq_comm]
      · simp [install, same, earlier]

theorem Owned.lookup
    (owned : Owned limit owner table holds) (held : (fd, file) ∈ holds holder) :
    table fd = some file := by
  rw [owned.opened, owned.own holder fd file held]
  exact held

/-- The descriptors that a call of a holder names stand for the files that the
holder means. -/
theorem Owned.named
    (owned : Owned limit owner table holds)
    (books : Books owner holder call (holds holder) now) (named : (fd, file) ∈ call.names) :
    table fd = some file := by
  cases books with
  | opens _ _ _ => cases named
  | uses held _ => exact owned.lookup (held named)
  | closes held =>
      rw [FdCall.names, List.mem_singleton] at named
      cases named
      exact owned.lookup (held.symm.subset List.mem_cons_self)

variable [DecidableEq Holder]

theorem Owned.changed
    (owned : Owned limit owner table holds)
    (opened : ∀ fd file, owner file = holder → (after fd = some file ↔ (fd, file) ∈ now))
    (others : ∀ fd file, owner file ≠ holder → (after fd = some file ↔ table fd = some file))
    (own : ∀ fd file, (fd, file) ∈ now → owner file = holder)
    (single : (now.map Prod.snd).Nodup) (within : ∀ fd file, (fd, file) ∈ now → fd < limit) :
    Owned limit owner after (Function.update holds holder now) where
  opened fd file := by
    by_cases mine : owner file = holder
    · rw [opened fd file mine, mine, Function.update_self]
    · rw [others fd file mine, Function.update_of_ne mine, owned.opened]
  own other fd file held := by
    by_cases same : other = holder
    · subst same
      rw [Function.update_self] at held
      exact own fd file held
    · rw [Function.update_of_ne same] at held
      exact owned.own other fd file held
  single other := by
    by_cases same : other = holder
    · subst same
      rwa [Function.update_self]
    · rw [Function.update_of_ne same]
      exact owned.single other
  within other fd file held := by
    by_cases same : other = holder
    · subst same
      rw [Function.update_self] at held
      exact within fd file held
    · rw [Function.update_of_ne same] at held
      exact owned.within other fd file held

theorem Owned.step
    (owned : Owned limit owner table holds) (answered : Answers limit table call after)
    (books : Books owner holder call (holds holder) now) :
    Owned limit owner after (Function.update holds holder now) := by
  have mine : ∀ fd file, owner file = holder →
      (table fd = some file ↔ (fd, file) ∈ holds holder) := by
    rintro fd file rfl
    exact owned.opened fd file
  cases answered with
  | @opens created distinct free =>
      cases books with
      | opens distinctFiles fresh permuted =>
          have installed : ∀ fd file, table.install created fd = some file ↔
              (fd, file) ∈ created ∨ table fd = some file := fun fd file =>
            install_eq_some distinct fun fd member => (free fd member).2
          refine owned.changed ?_ ?_ ?_ ?_ ?_
          · intro fd file same
            rw [installed, mine fd file same, permuted.mem_iff, List.mem_append]
          · intro fd file different
            rw [installed]
            refine or_iff_right fun member => different ?_
            exact (fresh file (List.mem_map_of_mem (f := Prod.snd) member)).1
          · intro fd file held
            rcases List.mem_append.mp (permuted.mem_iff.mp held) with member | earlier
            · exact (fresh file (List.mem_map_of_mem (f := Prod.snd) member)).1
            · exact owned.own holder fd file earlier
          · rw [(permuted.map Prod.snd).nodup_iff, List.map_append]
            refine distinctFiles.append (owned.single holder) ?_
            intro file member earlier
            exact (fresh file member).2 earlier
          · intro fd file held
            rcases List.mem_append.mp (permuted.mem_iff.mp held) with member | earlier
            · exact (free fd (List.mem_map_of_mem (f := Prod.fst) member)).1
            · exact owned.within holder fd file earlier
  | uses =>
      cases books with
      | uses held permuted =>
          refine owned.changed ?_ ?_ ?_ ?_ ?_
          · intro fd file same
            rw [mine fd file same, permuted.mem_iff]
          · exact fun fd file _ => Iff.rfl
          · exact fun fd file member => owned.own holder fd file (permuted.mem_iff.mp member)
          · rw [(permuted.map Prod.snd).nodup_iff]
            exact owned.single holder
          · exact fun fd file member => owned.within holder fd file (permuted.mem_iff.mp member)
  | @closes gone closed =>
      cases books with
      | closes permuted =>
          have held : (gone, closed) ∈ holds holder := permuted.mem_iff.mpr List.mem_cons_self
          have distinct := owned.single holder
          rw [(permuted.map Prod.snd).nodup_iff, List.map_cons, List.nodup_cons] at distinct
          obtain ⟨absent, distinct⟩ := distinct
          refine owned.changed ?_ ?_ ?_ distinct ?_
          · intro fd file same
            by_cases number : fd = gone
            · subst number
              rw [Function.update_self]
              refine ⟨nofun, fun member => ?_⟩
              have found := owned.lookup held
              rw [owned.lookup (permuted.mem_iff.mpr (List.mem_cons_of_mem _ member))] at found
              cases found
              exact (absent (List.mem_map_of_mem (f := Prod.snd) member)).elim
            · rw [Function.update_of_ne number, mine fd file same, permuted.mem_iff,
                List.mem_cons, Prod.mk.injEq]
              exact or_iff_right fun both => number both.1
          · intro fd file different
            by_cases number : fd = gone
            · subst number
              rw [Function.update_self, owned.lookup held]
              refine ⟨nofun, fun same => ?_⟩
              cases same
              exact (different (owned.own holder fd closed held)).elim
            · rw [Function.update_of_ne number]
          · intro fd file member
            exact owned.own holder fd file (permuted.mem_iff.mpr (List.mem_cons_of_mem _ member))
          · intro fd file member
            exact owned.within holder fd file
              (permuted.mem_iff.mpr (List.mem_cons_of_mem _ member))

omit [DecidableEq Holder] in
theorem Answers.room
    {created : List (Nat × File)} (answered : Answers limit table (.opens created) after)
    (some_left : created ≠ []) : openCount limit table < limit := by
  obtain ⟨⟨fd, file⟩, rest, rfl⟩ := List.exists_cons_of_ne_nil some_left
  cases answered with
  | opens _ free =>
      obtain ⟨below, closed⟩ := free fd List.mem_cons_self
      have fewer : ((Finset.range limit).filter fun fd => (table fd).isSome).card <
          (Finset.range limit).card := by
        refine Finset.card_lt_card (Finset.filter_ssubset.mpr ⟨fd, Finset.mem_range.mpr below, ?_⟩)
        rw [closed]
        exact Bool.false_ne_true
      rwa [Finset.card_range] at fewer

omit [DecidableEq Holder] in
theorem openCount_le (limit : Nat) (table : FdTable File) : openCount limit table ≤ limit :=
  (Finset.card_filter_le _ _).trans (Finset.card_range limit).le

omit [DecidableEq Holder] in
theorem Owned.nodup_fds
    (owned : Owned limit owner table holds) (holder : Holder) :
    ((holds holder).map Prod.fst).Nodup := by
  have files := List.Nodup.of_map Prod.snd (owned.single holder)
  refine files.map_on ?_
  rintro ⟨fd, file⟩ held ⟨other, opened⟩ held' same
  dsimp only at same
  subst same
  have found := owned.lookup held
  rw [owned.lookup held'] at found
  cases found
  rfl

omit [DecidableEq Holder] in
theorem Owned.openCount_eq
    (owned : Owned limit owner table holds) (holders : Finset Holder)
    (rest : ∀ holder, holder ∉ holders → holds holder = []) :
    openCount limit table = ∑ holder ∈ holders, (holds holder).length := by
  have parts : (Finset.range limit).filter (fun fd => (table fd).isSome) =
      holders.biUnion fun holder => ((holds holder).map Prod.fst).toFinset := by
    ext fd
    simp only [Finset.mem_filter, Finset.mem_range, Finset.mem_biUnion, List.mem_toFinset,
      List.mem_map, Prod.exists, exists_and_right, exists_eq_right]
    constructor
    · rintro ⟨_, isOpen⟩
      obtain ⟨file, found⟩ := Option.isSome_iff_exists.mp isOpen
      have held := (owned.opened fd file).mp found
      refine ⟨owner file, ?_, file, held⟩
      by_contra absent
      rw [rest _ absent] at held
      cases held
    · rintro ⟨holder, _, file, held⟩
      exact ⟨owned.within holder fd file held, by rw [owned.lookup held]; rfl⟩
  rw [openCount, parts, Finset.card_biUnion]
  · apply Finset.sum_congr rfl
    intro holder _
    rw [List.toFinset_card_of_nodup (owned.nodup_fds holder), List.length_map]
  · intro holder _ other _ different
    rw [Function.onFun, Finset.disjoint_left]
    intro fd held held'
    simp only [List.mem_toFinset, List.mem_map, Prod.exists, exists_and_right,
      exists_eq_right] at held held'
    obtain ⟨file, held⟩ := held
    obtain ⟨opened, held'⟩ := held'
    have found := owned.lookup held
    rw [owned.lookup held'] at found
    cases found
    exact different ((owned.own holder fd file held).symm.trans (owned.own other fd file held'))

omit [DecidableEq Holder] in
theorem Owned.empty (limit : Nat) (owner : File → Holder) :
    Owned limit owner (fun _ => none) (fun _ => []) where
  opened _ _ := iff_of_false nofun List.not_mem_nil
  own := nofun
  single _ := List.nodup_nil
  within := nofun

end Tables

section Servers

variable {process : Process} {listening : File} {inherits : Nat → File}
variable {limit : Nat} {owner : File → Option Nat} {table : FdTable File}
variable {opened : List (Nat × File)} {sessions : Nat → List (Nat × File)}

theorem serverBooks_update (number : Nat) (now : List (Nat × File)) :
    serverBooks opened (Function.update sessions number now) =
      Function.update (serverBooks opened sessions) (some number) now := by
  funext holder
  cases holder with
  | none => rfl
  | some other =>
      by_cases same : other = number
      · subst same
        rw [serverBooks, Function.update_self, Function.update_self]
      · rw [serverBooks, Function.update_of_ne same,
          Function.update_of_ne fun equal => same (Option.some.inj equal)]
        rfl

theorem Process.owned
    (process : Process) (injective : Function.Injective inherits)
    (apart : ∀ fd, inherits fd ≠ listening) (listens : owner listening = none)
    (before : ∀ fd, owner (inherits fd) = none) :
    Owned process.limit owner (process.table listening inherits)
      (serverBooks (process.opened listening inherits) fun _ => []) := by
  have fds : (process.opened listening inherits).map Prod.fst =
      process.listener :: process.inherited := by
    rw [opened, List.map_cons, List.map_map]
    exact congrArg _ (List.map_id _)
  have files : (process.opened listening inherits).map Prod.snd =
      listening :: process.inherited.map inherits := by
    rw [opened, List.map_cons, List.map_map]
    rfl
  have answered : Answers process.limit (fun _ => none)
      (.opens (process.opened listening inherits)) (process.table listening inherits) := by
    refine .opens ?_ ?_ <;> rw [fds]
    · exact process.distinct
    · exact fun fd member => ⟨process.within fd member, rfl⟩
  have books : Books owner none (.opens (process.opened listening inherits)) []
      (process.opened listening inherits) := by
    refine .opens ?_ ?_ (by rw [List.append_nil]) <;> rw [files]
    · refine List.nodup_cons.mpr ⟨?_, (List.nodup_cons.mp process.distinct).2.map injective⟩
      intro member
      obtain ⟨fd, _, same⟩ := List.mem_map.mp member
      exact apart fd same
    · intro file member
      refine ⟨?_, List.not_mem_nil⟩
      rcases List.mem_cons.mp member with rfl | member
      · exact listens
      · obtain ⟨fd, _, rfl⟩ := List.mem_map.mp member
        exact before fd
  have owned := (Owned.empty process.limit owner).step answered books
  convert owned using 1
  funext holder
  cases holder with
  | none => rw [Function.update_self, serverBooks]
  | some number => rw [Function.update_of_ne (Option.some_ne_none number), serverBooks]

/-- The open descriptors of a server, when only so many sessions hold some. -/
theorem Owned.openCount_server
    (owned : Owned limit owner table (serverBooks opened sessions)) (count : Nat)
    (rest : ∀ number, count ≤ number → sessions number = []) :
    openCount limit table =
      opened.length + ∑ number ∈ Finset.range count, (sessions number).length := by
  have counted := owned.openCount_eq (Finset.insertNone (Finset.range count)) (by
    intro holder outside
    cases holder with
    | none => exact absurd Finset.none_mem_insertNone outside
    | some number =>
        rw [Finset.some_mem_insertNone, Finset.mem_range, Nat.not_lt] at outside
        exact rest number outside)
  rw [counted, Finset.sum_insertNone]
  rfl

end Servers

end FdTable

end Tpt
