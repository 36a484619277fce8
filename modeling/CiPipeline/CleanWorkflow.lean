import CiPipeline.Workflow

/-!
# CiPipeline.CleanWorkflow

The second workflow of a project, which deletes the artifacts that runs of the first one leave.

* `CleanWorkflow.document` — its document, the same for every project.
-/

namespace CiPipeline
namespace CleanWorkflow

def lines : List String :=
  ["",
    "name: Clean",
    "",
    "on: push",
    "",
    "jobs:",
    "  delete-artifacts:",
    "    name: Delete Artifacts",
    "    runs-on: ubuntu-latest",
    "    env:",
    "      GITHUB_TOKEN: $\x7b\x7b secrets.GITHUB_TOKEN \x7d\x7d",
    "    steps:",
    "      - name: Delete artifacts",
    "        run: |",
    "          # Customize those three lines with your repository and credentials:",
    "          REPO=$\x7bGITHUB_API_URL\x7d/repos/$\x7b\x7b github.repository \x7d\x7d",
    "",
    "          # A shortcut to call GitHub API.",
    "          ghapi() \x7b curl --silent --location --user _:$GITHUB_TOKEN \"$@\"; \x7d",
    "",
    "          # A temporary file which receives HTTP response headers.",
    "          TMPFILE=/tmp/tmp.$$",
    "",
    "          # An associative array, key: artifact name, value: number of artifacts of that name.",
    "          declare -A ARTCOUNT",
    "",
    "          # Process all artifacts on this repository, loop on returned \"pages\".",
    "          URL=$REPO/actions/artifacts",
    "          while [[ -n \"$URL\" ]]; do",
    "",
    "            # Get current page, get response headers in a temporary file.",
    "            JSON=$(ghapi --dump-header $TMPFILE \"$URL\")",
    "",
    "            # Get URL of next page. Will be empty if we are at the last page.",
    "            URL=$(grep '^Link:' \"$TMPFILE\" | tr ',' '\\n' | grep 'rel=\"next\"' | head -1 | sed -e 's/.*<//' -e 's/>.*//')",
    "            rm -f $TMPFILE",
    "",
    "            # Number of artifacts on this page:",
    "            COUNT=$(( $(jq <<<$JSON -r '.artifacts | length') ))",
    "",
    "            # Loop on all artifacts on this page.",
    "            for ((i=0; $i < $COUNT; i++)); do",
    "",
    "              # Get name of artifact and count instances of this name.",
    "              name=$(jq <<<$JSON -r \".artifacts[$i].name?\")",
    "              ARTCOUNT[$name]=$(( $(( $\x7bARTCOUNT[$name]\x7d )) + 1))",
    "",
    "              id=$(jq <<<$JSON -r \".artifacts[$i].id?\")",
    "              size=$(( $(jq <<<$JSON -r \".artifacts[$i].size_in_bytes?\") ))",
    "              printf \"Deleting '%s' #%d, %'d bytes\\n\" $name $\x7bARTCOUNT[$name]\x7d $size",
    "              ghapi -X DELETE $REPO/actions/artifacts/$id",
    "            done",
    "          done"]

/-- It starts with the same words as every generated document. -/
def document : Text :=
  Text.joined "\n" ((Workflow.header ++ lines).map String.toList)

end CleanWorkflow
end CiPipeline
