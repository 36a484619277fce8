import CiPipeline.Step

/-!
# CiPipeline.Cache

Steps that keep the dependencies of a build between runs.

* `Cache.hashes` — one hash expression per dependency pattern.
* `Cache.step`   — a step that keeps one directory.
* `Cache.steps`  — the directories of the build tool and of the two dependency resolvers.
-/

namespace CiPipeline
namespace Cache

def hash (pattern : String) : String :=
  "$\x7b\x7b hashFiles('" ++ pattern ++ "') \x7d\x7d"

def hashes (patterns : List String) : String := "-".intercalate (patterns.map hash)

/-- The restore key leaves the hashes out, so a cache that is out of date is still picked up when
dependencies change. -/
def restoreKey (flavour : String) : String :=
  "$\x7b\x7b runner.os \x7d\x7d" ++ "-" ++ flavour ++ "-"

def step (name path flavour hashes : String) (cond : Option String) : Step where
  action := .use "actions" "cache" "v1"
    (.ofList
      [("path", path), ("key", restoreKey flavour ++ hashes),
        ("restore-keys", restoreKey flavour)])
  name := some name
  cond := cond

def onRunner (os : String) : String := "contains(runner.os, '" ++ os ++ "')"

/-- The second resolver keeps its files in a different place on each operating system. -/
def steps (patterns : List String) : List Step :=
  let key := hashes patterns
  [step "Cache ivy2" "~/.ivy2/cache" "sbt-ivy-cache" key none,
    step "Cache coursier (generic)" "~/.coursier/cache/v1" "generic-sbt-coursier-cache" key none,
    step "Cache coursier (linux)" "~/.cache/coursier/v1" "sbt-coursier-cache" key
      (some (onRunner "linux")),
    step "Cache coursier (macOS)" "~/Library/Caches/Coursier/v1" "sbt-coursier-cache" key
      (some (onRunner "macos")),
    step "Cache coursier (windows)" "~/AppData/Local/Coursier/Cache/v1" "sbt-coursier-cache" key
      (some (onRunner "windows")),
    step "Cache sbt" "~/.sbt" "sbt-cache" key none]

end Cache
end CiPipeline
