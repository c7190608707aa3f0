/-!
# Resources and users

The two kinds of names that every other module talks about: nodes of the scene and
project graph, and the people who edit them. Both are ordered by code point, which is
the order of every listing in this library.
-/

namespace SceneLocks

/-- The id of a lockable node of the scene or project graph. -/
abbrev Resource := String

/-- The name a person logs in with. -/
abbrev User := String

/-- The node that stands for the whole opened scene. -/
def Resource.scene : Resource := "SCENE"

/-- The node that stands for the whole opened project. -/
def Resource.project : Resource := "PROJECT"

end SceneLocks
