/-
**The graph of objects.**

Objects are linked to children along named relations. The graph is what the booking system says
about its objects; propagation only reads it.
-/

import BookingAccess.ObjectRef

namespace BookingAccess

structure Link where
  parent : ObjectRef
  relation : String
  child : ObjectRef
deriving DecidableEq, Inhabited

/-- The links in the order in which they were made, each once. -/
structure ObjectGraph where
  links : List Link
deriving DecidableEq, Inhabited

namespace ObjectGraph

def empty : ObjectGraph := ⟨[]⟩

def link (graph : ObjectGraph) (link : Link) : ObjectGraph :=
  if graph.links.contains link then graph else ⟨graph.links ++ [link]⟩

def unlink (graph : ObjectGraph) (link : Link) : ObjectGraph :=
  ⟨graph.links.filter (· != link)⟩

/-- The children of an object along a relation, in the order in which they were linked. -/
def children (graph : ObjectGraph) (parent : ObjectRef) (relation : String) : List ObjectRef :=
  graph.links.filterMap fun link =>
    if link.parent == parent && link.relation == relation then some link.child else none

theorem mem_children (graph : ObjectGraph) (parent child : ObjectRef) (relation : String) :
    child ∈ graph.children parent relation ↔ ⟨parent, relation, child⟩ ∈ graph.links := by
  simp only [children, List.mem_filterMap]
  constructor
  · rintro ⟨⟨source, along, target⟩, member, found⟩
    simp_all
  · intro member
    exact ⟨_, member, by simp⟩

end ObjectGraph

end BookingAccess
