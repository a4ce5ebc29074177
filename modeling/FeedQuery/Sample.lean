import FeedQuery.Log

/-!
Sample logs: a small mixed feed with every kind of message, and regular logs of any length.
-/
namespace FeedQuery.Sample

def alice : String := "@alice.ed25519"

def bob : String := "@bob.ed25519"

def carol : String := "@carol.ed25519"

/-- The root of the thread that most replies belong to. -/
def thread : String := "%thread.sha256"

def message (sequence : Nat) (author : String) (time : Nat) (content : Json) : Message where
  key := "%" ++ author ++ "-" ++ toString sequence
  entry := ⟨none, author, .ofNat sequence, .ofInt time, .ofJson content⟩
  received := .ofInt (time + 5)
  flags? := none

/-- The content of a type with further text fields. -/
def content (type : String) (fields : List (String × Json)) : Json :=
  .object (("type", .string type) :: fields)

def reply : Json :=
  content "post" [("text", .string "reply"), ("root", .string thread),
    ("branch", .array [.string thread]),
    ("mentions", .array [.object [("link", .string bob), ("name", .string "bob")]])]

def vote : Json :=
  content "vote" [("vote", .object [("link", .string thread), ("value", .number (.ofNat 1)),
    ("expression", .string "Like")])]

def fork : Json :=
  content "post" [("text", .string "fork"), ("root", .string thread),
    ("fork", .string "%other.sha256"), ("branch", .string thread)]

/-- Posts, replies, votes, contacts, and one private message. -/
def mixed : Log where
  messages := [
    message 1 alice 1000 (content "post" [("text", .string "hello"), ("channel", .string "intro")]),
    message 1 bob 1500 (content "contact" [("contact", .string alice), ("following", .bool true)]),
    message 2 alice 2000 reply,
    message 2 bob 2500 vote,
    message 3 alice 3000 (.string "c2VjcmV0.box"),
    message 1 carol 3500 (content "post" [("text", .string "cc"),
      ("mentions", .array [.string alice]), ("channel", .string "intro")]),
    message 4 alice 4000 (content "about" [("about", .string alice), ("name", .string "alice")]),
    message 3 bob 4500 fork,
    message 5 alice 5000 (content "post" [("text", .string "bye")])]

/-- The `i`-th message of a regular log: one a second, every second one by the other author, every
fourth one a vote. -/
def regularMessage (i : Nat) : Message :=
  message i (if i % 2 = 0 then alice else bob) (i * 1000)
    (content (if i % 4 = 0 then "vote" else "post") [])

def regular (count : Nat) : Log := ⟨(List.range count).map fun i => regularMessage (i + 1)⟩

end FeedQuery.Sample
