import ReviewMentor.Level
import ReviewMentor.Teaching.Template

/-!
# The built-in explanations

Explanations for single rules at some levels, and one for every other rule at each level.
-/

namespace ReviewMentor.Template

/-- The explanation of a rule that has none of its own. -/
def generic : Level → Template
  | .beginner =>
    { title := "\x7bcode\x7d: something to tidy up"
      why := "The checker noticed this on line \x7bline\x7d of \x7bfile\x7d: \x7bmessage\x7d. " ++
      "Small issues like this make code harder to read for the next person, including " ++
      "future you."
      fix := "Open \x7bfile\x7d, go to line \x7bline\x7d and read the message carefully. Search " ++
      "the code \x7bcode\x7d online for a short description of the rule."
      sample := "Look at the line the tool points to and compare it with the rule's " ++
      "description." }
  | .intermediate =>
    { title := "\x7bcode\x7d: \x7bmessage\x7d"
      why := "\x7bmessage\x7d (\x7bfile\x7d:\x7bline\x7d). Rules like this catch patterns that " ++
      "tend to hide bugs or slow down reviews."
      fix := "Fix the reported construct at \x7bfile\x7d:\x7bline\x7d. If the rule does not fit " ++
      "this codebase, disable it explicitly in the linter config instead of ignoring it."
      sample := "See the rule documentation for \x7bcode\x7d for before/after examples." }
  | .advanced =>
    { title := "\x7bcode\x7d"
      why := "\x7bmessage\x7d at \x7bfile\x7d:\x7bline\x7d (severity: \x7bseverity\x7d)."
      fix := "Address it or suppress it with a justified inline comment."
      sample := "" }

/-- The explanations of single rules. -/
def specific : List ((String × Level) × Template) := [
  (("F401", .beginner),
    { title := "You imported something you never use"
      why := "Line \x7bline\x7d of \x7bfile\x7d imports a module that nothing else in the file " ++
      "uses. Unused imports make it look like the file depends on things it does not."
      fix := "Delete the import on line \x7bline\x7d. If you plan to use it soon, add it back " ++
      "when you actually need it."
      sample := "# Before\nimport os\nprint(\"hi\")\n\n# After\nprint(\"hi\")" }),
  (("F401", .intermediate),
    { title := "Unused import"
      why := "\x7bmessage\x7d. Unused imports add load time and hide the module's real " ++
      "dependencies."
      fix := "Remove the import. If it is a deliberate re-export, list it in `__all__`."
      sample := "from .models import User  # re-export\n__all__ = [\"User\"]" }),
  (("E501", .beginner),
    { title := "This line is too long"
      why := "Line \x7bline\x7d is longer than the style guide allows. Long lines are hard to " ++
      "read, especially side by side with other code."
      fix := "Split the line. Python lets you break lines inside parentheses, brackets and " ++
      "braces."
      sample := "total = (first_value\n         + second_value\n         + third_value)" }),
  (("E501", .intermediate),
    { title := "Line too long"
      why := "\x7bmessage\x7d. Wrapped lines keep diffs readable and fit split-screen editors."
      fix := "Break at an operator inside parentheses, or extract a well-named variable."
      sample := "is_valid = user.is_active and user.email_verified\nif is_valid:\n    ..." }),
  (("W291", .beginner),
    { title := "Extra spaces at the end of a line"
      why := "Line \x7bline\x7d ends with spaces you cannot see. They create noisy changes in " ++
      "version control."
      fix := "Delete the spaces after the last character on line \x7bline\x7d. Most editors can " ++
      "strip them on save."
      sample := "x = 1   <- remove these spaces" }),
  (("D100", .beginner),
    { title := "This file has no description"
      why := "\x7bfile\x7d does not start with a docstring, so readers cannot tell at a glance " ++
      "what the module is for."
      fix := "Add a short sentence in triple quotes as the very first line of the file."
      sample := "\"\"\"Helpers for loading user settings.\"\"\"\n\nimport json" }),
  (("D100", .intermediate),
    { title := "Missing module docstring"
      why := "Module docstrings show up in `help()` and generated docs."
      fix := "Add a one-line summary docstring at the top of \x7bfile\x7d."
      sample := "\"\"\"User settings loading and validation.\"\"\"" }),
  (("C0114", .beginner),
    { title := "This file has no description"
      why := "\x7bfile\x7d does not start with a docstring, so readers cannot tell at a glance " ++
      "what the module is for."
      fix := "Add a short sentence in triple quotes as the very first line of the file."
      sample := "\"\"\"Helpers for loading user settings.\"\"\"" }),
  (("B101", .beginner),
    { title := "Don't rely on assert for checks"
      why := "Python removes `assert` statements when run with optimizations (-O), so the check " ++
      "on line \x7bline\x7d can silently disappear."
      fix := "Use an `if` statement and raise an exception instead."
      sample := "# Before\nassert user is not None\n\n# After\nif user is None:\n    raise " ++
      "ValueError(\"user is required\")" }),
  (("B101", .intermediate),
    { title := "assert used for runtime checks"
      why := "\x7bmessage\x7d. Asserts are stripped under `python -O`."
      fix := "Raise an explicit exception for conditions that must hold in production; keep " ++
      "`assert` for tests."
      sample := "if not token:\n    raise PermissionError(\"missing token\")" })]

/-- The explanation of a rule at a level. -/
def find (code : String) (level : Level) : Template :=
  (specific.lookup (code, level)).getD (generic level)

/-- Whether a rule has an explanation of its own at some level. -/
def hasSpecific (code : String) : Bool :=
  specific.any (·.1.1 = code)

end ReviewMentor.Template
