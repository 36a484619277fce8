import CiPipeline.Cache

/-!
# CiPipeline.Windows

Steps that make a checkout behave on Windows runners.

* `Windows.lineEnds` — before the checkout: files keep the line ends they were committed with.
* `Windows.symlinks` — after it: symbolic links become hard links and junctions.

Every step has a guard, so a job can run them on any operating system of its matrix.
-/

namespace CiPipeline
namespace Windows

def guard : String := Cache.onRunner "windows"

/-- The script that defines the command replacing symbolic links in a checkout. -/
def linkScript : List String :=
  ["git config --global alias.rm-symlinks '!'\"$(cat <<'ETX'",
    "__git_rm_symlinks() \x7b",
    "  case \"$1\" in (-h)",
    "    printf 'usage: git rm-symlinks [symlink] [symlink] [...]\\n'",
    "    return 0",
    "  esac",
    "  ppid=$$",
    "  case $# in",
    "    (0) git ls-files -s | grep -E '^120000' | cut -f2 ;;",
    "    (*) printf '%s\\n' \"$@\" ;;",
    "  esac | while IFS= read -r symlink; do",
    "    case \"$symlink\" in",
    "      (*/*) symdir=$\x7bsymlink%/*\x7d ;;",
    "      (*) symdir=. ;;",
    "    esac",
    "    git checkout -- \"$symlink\"",
    "    src=\"$\x7bsymdir\x7d/$(cat \"$symlink\")\"",
    "    posix_to_dos_sed='s_^/\\([A-Za-z]\\)_\\1:_;s_/_\\\\\\\\_g'",
    "    doslnk=$(printf '%s\\n' \"$symlink\" | sed \"$posix_to_dos_sed\")",
    "    dossrc=$(printf '%s\\n' \"$src\" | sed \"$posix_to_dos_sed\")",
    "    if [ -f \"$src\" ]; then",
    "      rm -f \"$symlink\"",
    "      cmd //C mklink //H \"$doslnk\" \"$dossrc\"",
    "    elif [ -d \"$src\" ]; then",
    "      rm -f \"$symlink\"",
    "      cmd //C mklink //J \"$doslnk\" \"$dossrc\"",
    "    else",
    "      printf 'error: git-rm-symlink: Not a valid source\\n' >&2",
    "      printf '%s =/=> %s  (%s =/=> %s)...\\n' \\",
    "          \"$symlink\" \"$src\" \"$doslnk\" \"$dossrc\" >&2",
    "      false",
    "    fi || printf 'ESC[%d]: %d\\n' \"$ppid\" \"$?\"",
    "    git update-index --assume-unchanged \"$symlink\"",
    "  done | awk '",
    "    BEGIN \x7b status_code = 0 \x7d",
    "    /^ESC\\['\"$ppid\"'\\]: / \x7b status_code = $2 ; next \x7d",
    "    \x7b print \x7d",
    "    END \x7b exit status_code \x7d",
    "  '",
    "\x7d",
    "__git_rm_symlinks",
    "ETX",
    ")\"",
    "git config --global alias.rm-symlink '!git rm-symlinks'  # for back-compat."]

def lineEnds : List Step :=
  [{ action := .run ["git config --global core.autocrlf false"]
     name := some "Ignore line ending differences in git"
     cond := some guard }]

/-- The first step installs the command, the second runs it. -/
def symlinks : List Step :=
  [{ action := .run ["\n".intercalate linkScript]
     name := some "Setup rm-symlink alias"
     cond := some guard },
    { action := .run ["git rm-symlink"]
      cond := some guard }]

end Windows
end CiPipeline
