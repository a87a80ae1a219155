import Malstrom.Types

namespace Malstrom.Snapshot

open Data

/-! An object store, every request to which may fail. -/

abbrev Path := List String

def Path.child (path : Path) (segment : String) : Path := path ++ [segment]

def Path.Below (path dir : Path) : Prop := dir <+: path ∧ path ≠ dir

instance (path dir : Path) : Decidable (path.Below dir) :=
  inferInstanceAs (Decidable (_ ∧ _))

inductive StoreError where
  | notFound
  | other
  deriving DecidableEq

/-- What becomes of a request to change an object.  One whose answer got lost was
carried out. -/
inductive Request where
  | answered
  | failed (error : StoreError)
  | lost (error : StoreError)
  deriving DecidableEq

/-- What becomes of a request to read one: there may be no answer, or the object
may break off. -/
inductive Read where
  | answered
  | failed
  | interrupted
  deriving DecidableEq

structure GetResult where
  content : Bytes
  complete : Bool
  deriving DecidableEq

def GetResult.bytes (result : GetResult) : Except StoreError Bytes :=
  if result.complete then .ok result.content else .error .other

/-- The objects by their paths, with what the `object_store` crate documents for
every store: a put replaces the object of its path as a whole or not at all; a
get answers `NotFound` where there is none, and streams the content, so that it
may break off; a listing has the objects below a directory, compared by whole
segments; and what is put or deleted is so for all later requests. -/
structure ObjectStore where
  objects : IndexMap Path Bytes
  deriving DecidableEq

/-- A request whose effect on the store is this one. -/
def Request.perform (request : Request) (effect : ObjectStore → ObjectStore)
    (store : ObjectStore) : ObjectStore × Except StoreError Unit :=
  match request with
  | .answered => (effect store, .ok ())
  | .failed error => (store, .error error)
  | .lost error => (effect store, .error error)

/-- What becomes of the deletion of a directory: of each of its objects, and of the
listing behind the last of them. -/
structure Deletion where
  requests : Path → Request
  listing : Option StoreError

inductive Change where
  | put (name : Path) (payload : Bytes)
  | delete (name : Path)
  deriving DecidableEq

namespace ObjectStore

def find (store : ObjectStore) (path : Path) : Option Bytes :=
  store.objects.get? path

def insert (store : ObjectStore) (path : Path) (payload : Bytes) : ObjectStore :=
  ⟨store.objects.insert path payload⟩

def remove (store : ObjectStore) (path : Path) : ObjectStore :=
  ⟨store.objects.swapRemove path⟩

def get (store : ObjectStore) (path : Path) (read : Read) :
    Except StoreError GetResult :=
  match read, store.find path with
  | .answered, some content => .ok ⟨content, true⟩
  | .answered, none => .error .notFound
  | .interrupted, some content => .ok ⟨content, false⟩
  | .interrupted, none | .failed, _ => .error .other

def put (store : ObjectStore) (path : Path) (payload : Bytes)
    (request : Request) : ObjectStore × Except StoreError Unit :=
  request.perform (fun store => store.insert path payload) store

def delete (store : ObjectStore) (path : Path) (request : Request) :
    ObjectStore × Except StoreError Unit :=
  request.perform (fun store => store.remove path) store

def list (store : ObjectStore) (dir : Path) : List Path :=
  store.objects.keys.filter fun path => decide (path.Below dir)

/-- The first error ends the deletion. -/
def deleteAll (deletion : Deletion) :
    List Path → ObjectStore → ObjectStore × Except StoreError Unit
  | [], store =>
      match deletion.listing with
      | none => (store, .ok ())
      | some error => (store, .error error)
  | path :: rest, store =>
      match store.delete path (deletion.requests path) with
      | (store, .ok ()) => deleteAll deletion rest store
      | (store, .error error) => (store, .error error)

def deleteDir (store : ObjectStore) (dir : Path) (deletion : Deletion) :
    ObjectStore × Except StoreError Unit :=
  deleteAll deletion (store.list dir) store

def apply (dir : Path) (store : ObjectStore) : Change → ObjectStore
  | .put name payload => store.insert (dir ++ name) payload
  | .delete name => store.remove (dir ++ name)

def applyAll (store : ObjectStore) (dir : Path) (changes : List Change) :
    ObjectStore :=
  changes.foldl (apply dir) store

variable {store : ObjectStore} {path dir : Path}

@[simp] theorem find_insert (store : ObjectStore) (path : Path)
    (payload : Bytes) : (store.insert path payload).find path = some payload :=
  IndexMap.get?_insert_self _ _ _

theorem find_insert_of_ne {other : Path} (different : other ≠ path)
    (payload : Bytes) : (store.insert path payload).find other = store.find other :=
  IndexMap.get?_insert_of_ne _ _ different

theorem find_remove_of_ne {other : Path} (different : other ≠ path) :
    (store.remove path).find other = store.find other := by
  rw [find, remove, IndexMap.get?_swapRemove, if_neg different]
  rfl

theorem find_deleteAll {deletion : Deletion} {paths : List Path}
    (unasked : path ∉ paths) :
    (deleteAll deletion paths store).1.find path = store.find path := by
  induction paths generalizing store with
  | nil =>
      unfold deleteAll
      cases deletion.listing <;> rfl
  | cons head rest ih =>
      obtain ⟨different, later⟩ := not_or.mp (mt List.mem_cons.mpr unasked)
      have removed : (store.remove head).find path = store.find path :=
        find_remove_of_ne different
      unfold deleteAll
      cases asked : deletion.requests head with
      | answered => exact (ih later).trans removed
      | failed error => rfl
      | lost error => exact removed

theorem find_deleteDir {deletion : Deletion} (outside : ¬ path.Below dir) :
    (store.deleteDir dir deletion).1.find path = store.find path := by
  apply find_deleteAll
  intro listed
  exact outside (of_decide_eq_true (List.mem_filter.mp listed).2)

theorem deleteAll_clears {deletion : Deletion} {paths : List Path}
    (ended : (deleteAll deletion paths store).2 = .ok ())
    (asked : path ∈ paths ∨ store.find path = none) :
    (deleteAll deletion paths store).1.find path = none := by
  induction paths generalizing store with
  | nil =>
      have absent := asked.resolve_left List.not_mem_nil
      unfold deleteAll
      cases deletion.listing <;> exact absent
  | cons head rest ih =>
      unfold deleteAll at ended ⊢
      cases request : deletion.requests head with
      | failed error | lost error =>
          simp [request, delete, Request.perform] at ended
      | answered =>
          simp only [request, delete, Request.perform] at ended ⊢
          apply ih ended
          by_cases same : path = head
          · right
            rw [same, find, remove, IndexMap.get?_swapRemove, if_pos rfl]
          · rcases asked with listed | absent
            · exact .inl ((List.mem_cons.mp listed).resolve_left same)
            · exact .inr ((find_remove_of_ne same).trans absent)

theorem deleteDir_clears {deletion : Deletion} (inside : path.Below dir)
    (cleared : (store.deleteDir dir deletion).2 = .ok ()) :
    (store.deleteDir dir deletion).1.find path = none := by
  apply deleteAll_clears cleared
  by_cases present : path ∈ store.objects
  · exact .inl (List.mem_filter.mpr ⟨present, decide_eq_true inside⟩)
  · exact .inr (IndexMap.get?_eq_none.mpr present)

theorem find_applyAll (outside : ¬ dir <+: path) (changes : List Change) :
    (store.applyAll dir changes).find path = store.find path := by
  have other (name : Path) : path ≠ dir ++ name := by
    intro same
    exact outside (same ▸ List.prefix_append dir name)
  induction changes generalizing store with
  | nil => rfl
  | cons change rest ih =>
      have next : (store.applyAll dir (change :: rest)).find path =
          (apply dir store change).find path := ih
      rw [next]
      cases change with
      | put name payload => exact find_insert_of_ne (other name) payload
      | delete name => exact find_remove_of_ne (other name)

end ObjectStore

end Malstrom.Snapshot
