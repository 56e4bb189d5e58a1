import CatalogAssembly.Schema.Error
import CatalogAssembly.Schema.Rule

/-!
# Registries of entity kinds

A descriptor holds the rules of one entity kind and a registry the descriptors
of all kinds that are known. `register` adds a kind from drafts of its rules, in
which paths are still texts. It checks the drafts in order and adds nothing when
one of them is at fault: a kind is registered once, has one root at most, and
has one rule for each fragment key.
-/
namespace CatalogAssembly

structure Descriptor where
  rules : List (String × Rule)

namespace Descriptor

def rule? (d : Descriptor) (key : String) : Option Rule := d.rules.lookup key

def size (d : Descriptor) : Nat := d.rules.length

def isEmpty (d : Descriptor) : Bool := d.rules.isEmpty

end Descriptor

structure Registry where
  entities : List (EntityKind × Descriptor)

/-- A rule whose paths are not read yet. -/
inductive RuleDraft where
  | root
  | direct (path : String)
  | indexed (parent path : String) (matcher : Matcher)

def readPath (text : String) : Except SchemaError Path :=
  match Path.parse text with
  | .ok path => .ok path
  | .error fault => .error (.invalidPath text fault)

theorem readPath_eq_ok_iff {text : String} {p : Path} :
    readPath text = .ok p ↔ Path.parse text = .ok p := by
  unfold readPath
  cases Path.parse text <;> simp

theorem readPath_eq_error_iff {text : String} {e : SchemaError} :
    readPath text = .error e ↔
      ∃ fault, Path.parse text = .error fault ∧ e = .invalidPath text fault := by
  unfold readPath
  cases Path.parse text <;> simp [eq_comm]

/-- The rule of a draft, given the rules before it. -/
def RuleDraft.rule (kind : EntityKind) (before : List (String × Rule)) (draft : RuleDraft) :
    Except SchemaError Rule :=
  match draft with
  | .root => if before.any (·.2.isRoot) then .error (.multipleRoots kind) else .ok .root
  | .direct path => do
    let path ← readPath path
    .ok (.direct path)
  | .indexed parent path matcher => do
    let parent ← readPath parent
    let path ← readPath path
    .ok (.indexed parent path matcher)

/-- Reads drafts in order and appends their rules. -/
def readRules (kind : EntityKind) (before : List (String × Rule)) :
    List (String × RuleDraft) → Except SchemaError (List (String × Rule))
  | [] => .ok before
  | (key, draft) :: drafts => do
    let rule ← draft.rule kind before
    if before.any (·.1 == key) then .error (.duplicateFragment kind key)
    else readRules kind (before ++ [(key, rule)]) drafts

namespace Registry

def empty : Registry := ⟨[]⟩

def descriptor? (r : Registry) (kind : EntityKind) : Option Descriptor := r.entities.lookup kind

def lookup? (r : Registry) (kind : EntityKind) (key : String) : Option Rule :=
  (r.descriptor? kind).bind (·.rule? key)

def kinds (r : Registry) : List EntityKind := r.entities.map (·.1)

def register (r : Registry) (kind : EntityKind) (drafts : List (String × RuleDraft)) :
    Except SchemaError Registry :=
  if (r.descriptor? kind).isSome then .error (.duplicateEntity kind)
  else do
    let rules ← readRules kind [] drafts
    .ok ⟨r.entities ++ [(kind, ⟨rules⟩)]⟩

/-- Registers a kind if its drafts allow it, and otherwise leaves the registry as it is. -/
def attempt (r : Registry) (kind : EntityKind) (drafts : List (String × RuleDraft)) :
    Registry × Option SchemaError :=
  match r.register kind drafts with
  | .ok r => (r, none)
  | .error e => (r, some e)

/-- The rules of an album release. -/
def albumReleaseRules : List (String × Rule) :=
  [(FragmentKind.albumRelease.name, .root),
   (FragmentKind.albumReleaseDetail.name, .direct [.key "details"]),
   (FragmentKind.albumReleaseUserDetail.name, .direct [.key "userDetails"]),
   (FragmentKind.artist.name, .direct [.key "primaryArtists"]),
   (FragmentKind.track.name, .direct [.key "details", .key "tracks"]),
   (FragmentKind.trackUserDetail.name,
    .indexed [.key "details", .key "tracks"] [.key "userDetails"]
      (.fieldEquals "parentTrack" "id"))]

def builtin : Registry := ⟨[(.albumRelease, ⟨albumReleaseRules⟩)]⟩

end Registry

end CatalogAssembly
