import LevelLink.Link.Registry
import LevelLink.Text.Quoted

/-!
# Summaries

One line that describes a registry or a subscriber, for diagnostics.
-/

namespace LevelLink

/-- A line on how many subscribers are at hand and which number is next. -/
def Registry.summary {ω : Type} (r : Registry ω) : String :=
  "Registry \x7b subscribers: " ++ toString r.live.size ++ ", next_id: " ++ toString r.nextId ++ " \x7d"

/-- A line on what a subscriber that has no number yet asks for and what listens. -/
def SubscriberOver.summary {ω π : Type} (s : SubscriberOver ω π) : String :=
  "Subscriber \x7b node: " ++ Text.quoted s.request.node ++ ", message: " ++ Text.quoted s.request.name ++
    ", id: None, stream: " ++ toString s.handler.isSome ++
    ", callbacks: " ++ toString s.callbacks.length ++ " \x7d"

end LevelLink
