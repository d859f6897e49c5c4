import ReviewMentor.Issue
import ReviewMentor.Level
import ReviewMentor.Teaching.Sanitize

/-!
# Prompts

What a model is told: who it is, and what it has to explain to whom.
-/

namespace ReviewMentor

/-- Who the model is. -/
def systemPrompt : String :=
  "You are a friendly Python mentor reviewing static-analysis findings for a student. " ++
  "Be accurate and encouraging. Keep code examples short."

/-- How a learner of a level is described. -/
def Level.audience : Level → String
  | beginner => "a beginner. Avoid jargon, explain any term you use and show the smallest " ++
    "possible example"
  | intermediate => "an intermediate developer. Assume Python basics and focus on the " ++
    "underlying principle"
  | advanced => "an advanced developer. Be concise and mention trade-offs or edge cases"

/-- The request to explain an issue to a learner. -/
def Issue.prompt (i : Issue) (level : Level) : String :=
  "Explain this Python linter finding to " ++ level.audience ++ ".\n\n" ++
  "- Tool: " ++ i.analyzer.name ++ "\n" ++
  "- Code: " ++ Phrase.sanitize i.code ++ "\n" ++
  "- Message: " ++ Phrase.sanitize i.message ++ "\n" ++
  "- Location: " ++ Phrase.sanitize i.file ++ ":" ++ toString i.line ++ "\n" ++
  (match i.severity with
    | some severity => "- Severity: " ++ severity ++ "\n"
    | none => "") ++
  "\nAnswer in exactly these Markdown sections:\n" ++
  "### Why\n(why this matters)\n" ++
  "### Fix\n(how to fix it)\n" ++
  "### Example\n(a short before/after code example)\n" ++
  "### ProTip\n(one tip that goes beyond the fix)\n"

end ReviewMentor
