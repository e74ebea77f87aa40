/-!
The prompts and workflows that are built in, for the lowest tier.
-/
namespace Runbook.Shipped

/-- The text of some lines, each with a line feed after it. -/
def page (lines : List String) : String := String.join (lines.map (· ++ "\n"))

def helpPrompt : String :=
  page ["---", "title: Help", "description: Explain how to use toolsmith prompts and workflows",
    "---", "", "You are helping a developer use toolsmith.",
    "Prompts live in ~/.toolsmith/prompts and ./.toolsmith/prompts.",
    "Workflows live in ~/.toolsmith/workflows and ./.toolsmith/workflows."]

def debugErrorPrompt : String :=
  page ["---", "title: Debug an error", "description: Analyse an error message and suggest a fix",
    "arguments:", "  - name: error", "    description: The error message or stack trace",
    "    required: true", "  - name: context",
    "    description: What you were doing when it happened", "---", "",
    "Analyse the following error and propose the smallest fix.", "", "Error:",
    "\x7b\x7b error \x7d\x7d", "", "Context:", "\x7b\x7b context \x7d\x7d"]

def reviewCodePrompt : String :=
  page ["---", "title: Code review", "description: Review a change for correctness and style",
    "arguments:", "  - name: diff", "    required: true", "---", "",
    "Review this change. List defects first, then style issues.", "", "\x7b\x7b diff \x7d\x7d"]

def helloWorld : String :=
  page ["---", "name: hello-world", "description: Minimal workflow that greets and finishes",
    "version: 1", "---", "", "\x60\x60\x60mermaid", "stateDiagram-v2", "    [*] --> Start",
    "    Start --> Greet", "    Greet --> Done", "    Done --> [*]", "\x60\x60\x60", "",
    "## Actions", "", "- Start: Log \"Starting hello-world\"",
    "- Greet: Set greeting=\"Hello from toolsmith\"", "- Done: Log \"hello-world finished\""]

def reviewLoop : String :=
  page ["---", "name: review-loop",
    "description: Implement, review and loop until the review passes", "version: 1", "---", "",
    "\x60\x60\x60mermaid", "stateDiagram-v2", "    [*] --> Implement",
    "    Implement --> Review", "    Review --> Decide", "    state Decide <<choice>>",
    "    Decide --> Ship : approved \x7bapproved == \"yes\"\x7d",
    "    Decide --> Implement : changes requested", "    Ship --> [*]", "\x60\x60\x60", "",
    "## Actions", "", "- Implement: Log \"Implementing change\"",
    "- Review: Execute prompt \"review/code\" -> review", "- Ship: Log \"Change approved\""]

def parallelChecks : String :=
  page ["---", "name: parallel-checks", "description: Run lint and tests side by side, then report",
    "version: 1", "---", "", "\x60\x60\x60mermaid", "stateDiagram-v2",
    "    state Split <<fork>>", "    state Merge <<join>>", "    [*] --> Prepare",
    "    Prepare --> Split", "    Split --> Lint", "    Split --> Test", "    Lint --> Merge",
    "    Test --> Merge", "    Merge --> Report", "    Report --> [*]", "\x60\x60\x60", "",
    "## Actions", "", "- Lint: Set lint=\"ok\"", "- Test: Set tests=\"ok\"",
    "- Report: Log \"All checks finished\""]

def prompts : List (String × String) :=
  [("help", helpPrompt), ("debug/error", debugErrorPrompt), ("review/code", reviewCodePrompt)]

def workflows : List (String × String) :=
  [("hello-world", helloWorld), ("review-loop", reviewLoop), ("parallel-checks", parallelChecks)]

end Runbook.Shipped
