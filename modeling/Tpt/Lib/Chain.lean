import Mathlib.Data.List.Basic
import Mathlib.Data.List.Nodup
import Mathlib.Tactic

/-!
Linked chains.

A link either names a node or is an end marker; a node stores the link to the
node after it.  `Chain target next link nodes` says that following links from
`link` visits `nodes` in order and then meets an end marker.
-/

namespace Tpt

universe u v

variable {Link : Type u} {Node : Type v}

/-- Following `next` from `link` visits `nodes` and stops at an end marker. -/
inductive Chain (target : Link → Option Node) (next : Node → Option Link) :
    Link → List Node → Prop where
  | nil {link} : target link = none → Chain target next link []
  | cons {link node after nodes} :
      target link = some node →
      next node = some after →
      Chain target next after nodes →
      Chain target next link (node :: nodes)

namespace Chain

variable {target : Link → Option Node} {next next' : Node → Option Link}

theorem nil_iff {link : Link} :
    Chain target next link [] ↔ target link = none :=
  ⟨fun chain => by cases chain; assumption, .nil⟩

theorem cons_iff {link : Link} {node : Node} {nodes : List Node} :
    Chain target next link (node :: nodes) ↔
      target link = some node ∧
        ∃ after, next node = some after ∧ Chain target next after nodes := by
  constructor
  · intro chain
    cases chain with
    | cons enters follows rest => exact ⟨enters, _, follows, rest⟩
  · rintro ⟨enters, after, follows, rest⟩
    exact .cons enters follows rest

theorem unique {link : Link} {nodes others : List Node}
    (chain : Chain target next link nodes)
    (other : Chain target next link others) : nodes = others := by
  induction chain generalizing others with
  | nil ends =>
      cases other with
      | nil => rfl
      | cons enters => simp [ends] at enters
  | cons enters follows rest inductionHypothesis =>
      cases other with
      | nil ends => simp [ends] at enters
      | cons enters' follows' rest' =>
          obtain rfl := Option.some.inj (enters.symm.trans enters')
          obtain rfl := Option.some.inj (follows.symm.trans follows')
          rw [inductionHypothesis rest']

theorem congr {link : Link} {nodes : List Node}
    (chain : Chain target next link nodes)
    (agree : ∀ node ∈ nodes, next' node = next node) :
    Chain target next' link nodes := by
  induction chain with
  | nil ends => exact .nil ends
  | @cons link node after nodes enters follows rest inductionHypothesis =>
      refine .cons enters ?_ (inductionHypothesis fun other membership =>
        agree other (List.mem_cons_of_mem node membership))
      rw [agree node (by simp), follows]

/-- Redirecting the last link to a fresh node that ends the chain appends that
node. -/
theorem snoc {link toFresh stop : Link} {nodes : List Node} {last fresh : Node}
    (chain : Chain target next link (nodes ++ [last]))
    (agree : ∀ node ∈ nodes, next' node = next node)
    (relinked : next' last = some toFresh) (enters : target toFresh = some fresh)
    (follows : next' fresh = some stop) (ends : target stop = none) :
    Chain target next' link (nodes ++ [last, fresh]) := by
  induction nodes generalizing link with
  | nil =>
      rcases cons_iff.mp chain with ⟨entersLast, _⟩
      exact .cons entersLast relinked (.cons enters follows (.nil ends))
  | cons node nodes inductionHypothesis =>
      rcases cons_iff.mp chain with ⟨entersNode, after, followsNode, rest⟩
      refine .cons entersNode ((agree node (by simp)).trans followsNode) ?_
      exact inductionHypothesis rest fun other membership =>
        agree other (List.mem_cons_of_mem node membership)

end Chain

universe w

/-- Cells from `head` to `last` that form an acyclic chain and hold
`elements`. -/
structure Linked {Element : Type w} (next : Nat → Option (Option Nat))
    (data : Nat → Option Element) (head last : Option Nat) (addresses : List Nat)
    (elements : List Element) : Prop where
  chain : Chain id next head addresses
  acyclic : addresses.Nodup
  contents : addresses.map data = elements.map some
  last : last = addresses.getLast?

namespace Linked

variable {Element : Type w} {next next' : Nat → Option (Option Nat)}
variable {data data' : Nat → Option Element} {head last : Option Nat} {addresses : List Nat}
variable {elements : List Element} {element : Element}

theorem live
    (linked : Linked next data head last addresses elements) {address : Nat}
    (member : address ∈ addresses) :
    ∃ element, element ∈ elements ∧ data address = some element := by
  have stored : data address ∈ elements.map some := by
    rw [← linked.contents]
    exact List.mem_map_of_mem member
  obtain ⟨element, inside, same⟩ := List.mem_map.mp stored
  exact ⟨element, inside, same.symm⟩

theorem length_eq
    (linked : Linked next data head last addresses elements) :
    addresses.length = elements.length := by
  simpa using congrArg List.length linked.contents

theorem unique
    {last' : Option Nat} {addresses' : List Nat} {elements' : List Element}
    (linked : Linked next data head last addresses elements)
    (linked' : Linked next data head last' addresses' elements') : elements = elements' := by
  obtain rfl := linked.chain.unique linked'.chain
  have same : elements.map some = elements'.map some :=
    linked.contents.symm.trans linked'.contents
  exact (Option.some_injective Element).list_map same

theorem head_eq_none_iff
    (linked : Linked next data head last addresses elements) :
    head = none ↔ elements = [] := by
  rw [← List.length_eq_zero_iff, ← linked.length_eq, List.length_eq_zero_iff]
  constructor
  · intro empty
    exact linked.chain.unique (.nil empty)
  · rintro rfl
    exact @Chain.nil_iff _ _ id next head |>.mp linked.chain

theorem single
    {fresh : Nat} (ends : next fresh = some none) (stored : data fresh = some element) :
    Linked next data (some fresh) (some fresh) [fresh] [element] where
  chain := .cons rfl ends (.nil rfl)
  acyclic := List.nodup_singleton fresh
  contents := by simp [stored]
  last := rfl

theorem snoc
    {front : List Nat} {tail fresh : Nat}
    (linked : Linked next data head last (front ++ [tail]) elements)
    (outside : fresh ∉ front ++ [tail])
    (agree : ∀ address, address ≠ tail → address ≠ fresh → next' address = next address)
    (relinked : next' tail = some (some fresh)) (ends : next' fresh = some none)
    (same : ∀ address, address ≠ fresh → data' address = data address)
    (stored : data' fresh = some element) :
    Linked next' data' head (some fresh) (front ++ [tail, fresh]) (elements ++ [element]) := by
  have tailOutside : tail ∉ front := by
    intro member
    exact (List.nodup_append.mp linked.acyclic).2.2 tail member tail (by simp) rfl
  have apart : ∀ address, address ∈ front ++ [tail] → address ≠ fresh := by
    rintro address member rfl
    exact outside member
  have extended : front ++ [tail, fresh] = (front ++ [tail]) ++ [fresh] := by simp
  refine ⟨?_, ?_, ?_, by simp⟩
  · refine linked.chain.snoc ?_ relinked rfl ends rfl
    intro address member
    have notTail : address ≠ tail := fun equal => tailOutside (equal ▸ member)
    exact agree address notTail (apart address (List.mem_append_left _ member))
  · rw [extended]
    apply List.Nodup.append linked.acyclic (List.nodup_singleton fresh)
    simpa using outside
  · have kept : (front ++ [tail]).map data' = elements.map some := by
      rw [← linked.contents]
      apply List.map_congr_left
      intro address member
      exact same address (apart address member)
    rw [extended, List.map_append, kept, List.map_append, List.map_singleton, List.map_singleton,
      stored]

end Linked

end Tpt
