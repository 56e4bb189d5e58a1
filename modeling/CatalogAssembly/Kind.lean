/-!
# Kinds of entities and of fragments

Every kind has a name by which data refers to it. Entity kinds also have a name
for use on the command line, and either of the two is understood.
-/
namespace CatalogAssembly

inductive EntityKind where
  | albumRelease
  deriving DecidableEq, Repr

namespace EntityKind

def all : List EntityKind := [.albumRelease]

def name : EntityKind → String
  | .albumRelease => "albumRelease"

def commandName : EntityKind → String
  | .albumRelease => "album-release"

def ofName? (s : String) : Option EntityKind :=
  all.find? fun kind => kind.name == s || kind.commandName == s

end EntityKind

inductive FragmentKind where
  | albumRelease
  | albumReleaseDetail
  | albumReleaseUserDetail
  | artist
  | track
  | trackUserDetail
  deriving DecidableEq, Repr

namespace FragmentKind

def all : List FragmentKind :=
  [.albumRelease, .albumReleaseDetail, .albumReleaseUserDetail, .artist, .track, .trackUserDetail]

def name : FragmentKind → String
  | .albumRelease => "albumRelease"
  | .albumReleaseDetail => "albumReleaseDetail"
  | .albumReleaseUserDetail => "albumReleaseUserDetail"
  | .artist => "artist"
  | .track => "track"
  | .trackUserDetail => "trackUserDetail"

def ofName? (s : String) : Option FragmentKind := all.find? fun kind => kind.name == s

end FragmentKind

end CatalogAssembly
