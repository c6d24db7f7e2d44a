import Mathlib.Data.List.Basic
import Mathlib.Logic.Function.Basic

/- A relation that is stored twice, once by its sources and once by its destinations, in
   sets under keys that are edited one at a time. The two sides agree as long as each edit
   is made on both of them. -/
namespace TwoWayLinks

/-- Sets under keys; the order of a list is of no account. -/
abbrev Sets (Key : Type) := Key → List Key

structure Links (Key : Type) where
  destinations : Sets Key
  sources : Sets Key

def empty (Key : Type) : Links Key where
  destinations := fun _ => []
  sources := fun _ => []

variable {Key : Type}

def Linked (links : Links Key) (source destination : Key) : Prop :=
  destination ∈ links.destinations source

def Agree (links : Links Key) : Prop :=
  ∀ source destination, destination ∈ links.destinations source ↔ source ∈ links.sources destination

theorem empty_agree : Agree (empty Key) := by
  intro source destination
  simp [empty]

variable [DecidableEq Key]

def add (key member : Key) (sets : Sets Key) : Sets Key :=
  Function.update sets key ((sets key).insert member)

def remove (key member : Key) (sets : Sets Key) : Sets Key :=
  Function.update sets key ((sets key).filter fun other => other ≠ member)

def clear (key : Key) (sets : Sets Key) : Sets Key :=
  Function.update sets key []

@[simp] theorem mem_add {key member other : Key} {sets : Sets Key} {under : Key} :
    other ∈ add key member sets under ↔
      (under = key ∧ other = member) ∨ other ∈ sets under := by
  by_cases same : under = key
  · simp [add, same]
  · simp [add, same]

@[simp] theorem mem_remove {key member other : Key} {sets : Sets Key} {under : Key} :
    other ∈ remove key member sets under ↔
      other ∈ sets under ∧ ¬ (under = key ∧ other = member) := by
  by_cases same : under = key
  · simp [remove, same]
  · simp [remove, same]

@[simp] theorem mem_clear {key other : Key} {sets : Sets Key} {under : Key} :
    other ∈ clear key sets under ↔ other ∈ sets under ∧ under ≠ key := by
  by_cases same : under = key
  · simp [clear, same]
  · simp [clear, same]

theorem add_comm {key other member more : Key} {sets : Sets Key} (apart : key ≠ other) :
    add key member (add other more sets) = add other more (add key member sets) := by
  unfold add
  rw [Function.update_of_ne apart, Function.update_of_ne apart.symm, Function.update_comm apart]

def link (pair : Key × Key) (links : Links Key) : Links Key where
  destinations := add pair.1 pair.2 links.destinations
  sources := add pair.2 pair.1 links.sources

def unlink (pair : Key × Key) (links : Links Key) : Links Key where
  destinations := remove pair.1 pair.2 links.destinations
  sources := remove pair.2 pair.1 links.sources

def linkAll (pairs : List (Key × Key)) (links : Links Key) : Links Key :=
  pairs.foldl (fun links pair => link pair links) links

def unlinkAll (pairs : List (Key × Key)) (links : Links Key) : Links Key :=
  pairs.foldl (fun links pair => unlink pair links) links

@[simp] theorem linked_link {pair : Key × Key} {links : Links Key} {source destination : Key} :
    Linked (link pair links) source destination ↔
      (source, destination) = pair ∨ Linked links source destination := by
  simp [Linked, link, Prod.ext_iff]

@[simp] theorem linked_unlink {pair : Key × Key} {links : Links Key} {source destination : Key} :
    Linked (unlink pair links) source destination ↔
      Linked links source destination ∧ (source, destination) ≠ pair := by
  simp [Linked, unlink, Prod.ext_iff]

theorem link_agree {links : Links Key} (agree : Agree links) (pair : Key × Key) :
    Agree (link pair links) := by
  intro source destination
  simp only [link, mem_add, agree source destination]
  tauto

theorem unlink_agree {links : Links Key} (agree : Agree links) (pair : Key × Key) :
    Agree (unlink pair links) := by
  intro source destination
  simp only [unlink, mem_remove, agree source destination]
  tauto

theorem linkAll_append (pairs more : List (Key × Key)) (links : Links Key) :
    linkAll (pairs ++ more) links = linkAll more (linkAll pairs links) :=
  List.foldl_append

theorem linked_linkAll {pairs : List (Key × Key)} {links : Links Key} {source destination : Key} :
    Linked (linkAll pairs links) source destination ↔
      (source, destination) ∈ pairs ∨ Linked links source destination := by
  induction pairs generalizing links with
  | nil => simp [linkAll]
  | cons pair rest ih =>
    have first : linkAll (pair :: rest) links = linkAll rest (link pair links) := rfl
    rw [first, ih, linked_link, List.mem_cons]
    tauto

theorem linked_unlinkAll {pairs : List (Key × Key)} {links : Links Key}
    {source destination : Key} :
    Linked (unlinkAll pairs links) source destination ↔
      Linked links source destination ∧ (source, destination) ∉ pairs := by
  induction pairs generalizing links with
  | nil => simp [unlinkAll]
  | cons pair rest ih =>
    have first : unlinkAll (pair :: rest) links = unlinkAll rest (unlink pair links) := rfl
    rw [first, ih, linked_unlink, List.mem_cons]
    tauto

theorem linkAll_agree (pairs : List (Key × Key)) {links : Links Key} (agree : Agree links) :
    Agree (linkAll pairs links) := by
  induction pairs generalizing links with
  | nil => exact agree
  | cons pair rest ih => exact ih (link_agree agree pair)

theorem unlinkAll_agree (pairs : List (Key × Key)) {links : Links Key} (agree : Agree links) :
    Agree (unlinkAll pairs links) := by
  induction pairs generalizing links with
  | nil => exact agree
  | cons pair rest ih => exact ih (unlink_agree agree pair)

end TwoWayLinks
