/-!
# The supervisor of a run

The interpreter is started on this program. It reads the request, answers the
questions of the submission from it, runs the submission as the main program,
and leaves the note of the run.
-/

namespace Marksheet.Run

/-- The lines of the supervisor. -/
def supervisorLines : List String :=
  ["import builtins",
   "import json",
   "import random",
   "import runpy",
   "import sys",
   "import traceback",
   "",
   "TARGET, REPORT = sys.argv[1], sys.argv[2]",
   "RUNNER = \"<string>\"",
   "",
   "request = json.loads(sys.stdin.read())",
   "answers = iter(request[\"answers\"])",
   "calls = 0",
   "",
   "",
   "def scripted_input(prompt=\"\"):",
   "    global calls",
   "    calls += 1",
   "    if request[\"echo\"]:",
   "        sys.stdout.write(str(prompt))",
   "    try:",
   "        return next(answers)",
   "    except StopIteration:",
   "        raise EOFError(\"EOF when reading a line\") from None",
   "",
   "",
   "def submission_trace(exc):",
   "    frames = list(traceback.extract_tb(exc.__traceback__))",
   "    while frames and frames[0].filename != TARGET:",
   "        frames.pop(0)",
   "    while frames and frames[-1].filename == RUNNER:",
   "        frames.pop()",
   "    head = [\"Traceback (most recent call last):\\n\"] if frames else []",
   "    body = traceback.format_list(frames)",
   "    tail = traceback.format_exception_only(type(exc), exc)",
   "    return \"\".join(head + body + tail).rstrip(\"\\n\")",
   "",
   "",
   "builtins.input = scripted_input",
   "if request[\"seed\"] is not None:",
   "    random.seed(request[\"seed\"])",
   "sys.argv = [TARGET]",
   "",
   "fault = None",
   "try:",
   "    runpy.run_path(TARGET, run_name=\"__main__\")",
   "except SystemExit:",
   "    pass",
   "except BaseException as exc:",
   "    fault = submission_trace(exc)",
   "finally:",
   "    sys.stdout.flush()",
   "",
   "with open(REPORT, \"w\", encoding=\"utf-8\") as report:",
   "    json.dump(\x7b\"fault\": fault, \"input_requests\": calls\x7d, report)"]

/-- The text of the supervisor; every line ends in a line feed. -/
def supervisor : String := String.join (supervisorLines.map (· ++ "\n"))

end Marksheet.Run
