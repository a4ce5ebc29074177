import FeedQuery.CommandLine.Run
import FeedQuery.Proofs.Log.Layout
import FeedQuery.Proofs.Service.Posts

/-!
The command for posts: when it fails, and what it puts out otherwise. The posts that it puts out one
a line are a log again, which has just these posts.
-/
namespace FeedQuery

namespace Log.Layout

/-- The layout of a program: a message on each line, and nothing else. -/
def ofMessages (ms : List Message) : Layout :=
  ⟨ms.map fun m => (.message m, .lf), .blank [] rfl⟩

@[simp] theorem messages_ofMessages (ms : List Message) : (ofMessages ms).messages = ms := by
  induction ms with
  | nil => rfl
  | cons m ms ih => exact congrArg (m :: ·) ih

theorem text_ofMessages (ms : List Message) :
    (ofMessages ms).text = String.join (ms.map fun m => m.line ++ "\n") := by
  induction ms with
  | nil => rfl
  | cons m ms ih =>
    have hline : (ofMessages (m :: ms)).text.toList =
        m.line.toList ++ ['\n'] ++ (ofMessages ms).text.toList := by
      rw [text, text, String.toList_ofList, String.toList_ofList]
      show (m.line.toList ++ [] ++ '\n' :: _) = _
      rw [List.append_nil, List.append_assoc]
      rfl
    rw [List.map_cons, String.join_cons, ← ih]
    apply String.toList_injective
    rw [hline, String.toList_append, String.toList_append]
    rfl

end Log.Layout

namespace CommandLine

section

variable {files : Files} {path : String} {settings : Settings} {author? : Option String}
  {e : CommandError}

/-- Why no service is opened over a log file: the first of these that applies. -/
inductive NotOpened (files : Files) (path : String) (settings : Settings) :
    CommandError → Prop where
  | unreadable (hfile : files path = none) :
      NotOpened files path settings (.store (.io (unreadable path)))
  | notLog {file : String} {e : StoreError} (hfile : files path = some file)
      (hlog : Log.ofText file = .error e) : NotOpened files path settings (.store e)
  | pageSize {file : String} {l : Log} (hfile : files path = some file)
      (hlog : Log.ofText file = .ok l) (hsize : settings.maximum.val < settings.pageSize.val) :
      NotOpened files path settings
        (.query (.settings (.aboveMaximum settings.pageSize settings.maximum)))

theorem openService_of_ofText {file : String} {l : Log} (hfile : files path = some file)
    (hlog : Log.ofText file = .ok l) : openService files path settings =
      (Service.init ⟨"", some (.ofLog l)⟩ settings).mapError .query := by
  rw [openService, hfile]
  exact bind_of_eq_ok (mapError_eq_ok_iff.2 hlog)

theorem openService_of_le {file : String} {l : Log} (hfile : files path = some file)
    (hlog : Log.ofText file = .ok l) (hsize : settings.pageSize.val ≤ settings.maximum.val) :
    openService files path settings = .ok (⟨settings.selfId?.getD "", settings⟩, .ofLog l) := by
  rw [openService_of_ofText hfile hlog, Service.init_of_le hsize]
  rfl

theorem NotOpened.openService_eq (h : NotOpened files path settings e) :
    openService files path settings = .error e := by
  cases h with
  | unreadable hfile =>
    rw [openService, hfile]
    rfl
  | notLog hfile hlog =>
    rw [openService, hfile]
    dsimp only
    rw [hlog]
    rfl
  | pageSize hfile hlog hsize =>
    rw [openService_of_ofText hfile hlog, Service.init_of_lt hsize]
    rfl

/-- Either a log file can be opened or it is said why not. -/
theorem log_or_notOpened (files : Files) (path : String) (settings : Settings) :
    (∃ file l, files path = some file ∧ Log.ofText file = .ok l ∧
      settings.pageSize.val ≤ settings.maximum.val) ∨ ∃ e, NotOpened files path settings e := by
  cases hfile : files path with
  | none => exact .inr ⟨_, .unreadable hfile⟩
  | some file =>
    cases hlog : Log.ofText file with
    | error e => exact .inr ⟨_, .notLog hfile hlog⟩
    | ok l =>
      rcases Nat.lt_or_ge settings.maximum.val settings.pageSize.val with hsize | hsize
      · exact .inr ⟨_, .pageSize hfile hlog hsize⟩
      · exact .inl ⟨file, l, rfl, hlog, hsize⟩

theorem isNone_of_or_eq_some {x? y? : Option String} {x : String} (h : x?.or y? = some x) :
    (x?.isNone && y?.isNone) = false := by
  rcases Option.or_eq_some_iff.1 h with rfl | ⟨rfl, rfl⟩ <;> rfl

theorem getD_of_or_eq_some {x? y? : Option String} {x : String} (h : x?.or y? = some x) :
    x?.getD (y?.getD "") = x := by
  rcases Option.or_eq_some_iff.1 h with rfl | ⟨rfl, rfl⟩ <;> rfl

theorem userPosts_of_author {l : Log} {author : String}
    (hauthor : author?.or settings.selfId? = some author) :
    (Service.userPosts ⟨settings.selfId?.getD "", settings⟩ author? (.ofLog l)).1 =
      .ok (l.postsOf author) := by
  rw [← getD_of_or_eq_some hauthor, ← Log.query_postsBy]
  rfl

theorem drain_userPostsStream_of_author {l : Log} {author : String}
    (hauthor : author?.or settings.selfId? = some author) :
    ((Service.userPostsStream ⟨settings.selfId?.getD "", settings⟩ author?).drain (.ofLog l)).1 =
      .ok (l.postsOf author) := by
  rw [Service.drain_userPostsStream _ _ rfl, ← getD_of_or_eq_some hauthor, ← Log.query_postsBy]
  rfl

/-- Why the command for posts fails. It asks for the posts of the author that is named, or else of
the identity in the settings, and looks for one of these before it opens the log. -/
inductive PostsFailure (files : Files) (settings : Settings) (path : String)
    (author? : Option String) : CommandError → Prop where
  | noAuthor (hauthor : author?.or settings.selfId? = none) :
      PostsFailure files settings path author?
        (.configuration "no --author given and FEEDQ_SELF_ID is not set")
  | notOpened {author : String} {e : CommandError}
      (hauthor : author?.or settings.selfId? = some author) (h : NotOpened files path settings e) :
      PostsFailure files settings path author? e

theorem PostsFailure.runPosts_eq (h : PostsFailure files settings path author? e)
    (pretty stream : Bool) : runPosts files settings pretty path author? stream = .error e := by
  rw [runPosts]
  cases h with
  | noAuthor hauthor =>
    obtain ⟨hnone, hself⟩ := Option.or_eq_none_iff.1 hauthor
    rw [hnone, hself]
    rfl
  | notOpened hauthor hopen =>
    rw [isNone_of_or_eq_some hauthor, hopen.openService_eq]
    rfl

/-- The command puts out the posts of the author: at once in an array, or as a stream one a line. -/
theorem runPosts_of_log {file : String} {l : Log} {author : String} (pretty : Bool)
    (hauthor : author?.or settings.selfId? = some author) (hfile : files path = some file)
    (hlog : Log.ofText file = .ok l) (hsize : settings.pageSize.val ≤ settings.maximum.val) :
    runPosts files settings pretty path author? false =
        .ok (.print (messagesText pretty (l.postsOf author) ++ "\n")) ∧
      runPosts files settings pretty path author? true =
        .ok (.print (String.join ((l.postsOf author).map fun m => m.line ++ "\n"))) := by
  have heager := userPosts_of_author (l := l) hauthor
  have hstream := drain_userPostsStream_of_author (l := l) hauthor
  simp only [runPosts, isNone_of_or_eq_some hauthor, openService_of_le hfile hlog hsize]
  constructor
  · rcases hrun : Service.userPosts ⟨_, settings⟩ author? (.ofLog l) with ⟨rows, store⟩
    rw [hrun] at heager
    cases heager
    simp only [pure, Except.pure, bind, Except.bind, hrun]
    rfl
  · rcases hrun : (Service.userPostsStream ⟨_, settings⟩ author?).drain (.ofLog l) with
      ⟨rows, store⟩
    rw [hrun] at hstream
    cases hstream
    simp only [pure, Except.pure, bind, Except.bind, ↓reduceIte, hrun]
    rfl

theorem log_or_postsFailure (files : Files) (settings : Settings) (path : String)
    (author? : Option String) :
    (∃ author file l, author?.or settings.selfId? = some author ∧ files path = some file ∧
      Log.ofText file = .ok l ∧ settings.pageSize.val ≤ settings.maximum.val) ∨
      ∃ e, PostsFailure files settings path author? e := by
  cases hauthor : author?.or settings.selfId? with
  | none => exact .inr ⟨_, .noAuthor hauthor⟩
  | some author =>
    rcases log_or_notOpened files path settings with ⟨file, l, hlog⟩ | ⟨e, he⟩
    · exact .inl ⟨author, file, l, rfl, hlog⟩
    · exact .inr ⟨e, .notOpened hauthor he⟩

theorem runPosts_eq_error_iff (pretty stream : Bool) :
    runPosts files settings pretty path author? stream = .error e ↔
      PostsFailure files settings path author? e := by
  constructor
  · intro h
    rcases log_or_postsFailure files settings path author? with
      ⟨author, file, l, hauthor, hfile, hlog, hsize⟩ | ⟨e', he'⟩
    · obtain ⟨heager, hstream⟩ := runPosts_of_log pretty hauthor hfile hlog hsize
      cases stream with
      | false => cases heager.symm.trans h
      | true => cases hstream.symm.trans h
    · cases (he'.runPosts_eq pretty stream).symm.trans h
      exact he'
  · exact fun h => h.runPosts_eq pretty stream

/-- The posts of a log that was read from a text are read back from their lines. -/
theorem ofText_postsOf {file : String} {l : Log} (hlog : Log.ofText file = .ok l)
    (author : String) : Log.ofText (String.join ((l.postsOf author).map fun m => m.line ++ "\n")) =
      .ok ⟨l.postsOf author⟩ := by
  have hmessages := Log.Layout.messages_ofMessages (l.postsOf author)
  have hread := Log.ofText_layout (l := .ofMessages (l.postsOf author)) ?_
  · rwa [Log.Layout.text_ofMessages, hmessages] at hread
  · rw [hmessages]
    intro m hm
    exact Log.exists_text_of_ofText hlog m (List.mem_filter.1 hm).1

end

/-- Messages that any text is decoded as, written one a line, are read back, whatever the line ends
are and wherever blank lines stand. The command for posts fails exactly if it has no author, or if
its log cannot be read or be opened with the settings. Otherwise it puts out the posts of the author
in the log, and as a stream it puts out one a line, which is a log of just these posts. -/
theorem written_messages_read_back :
    (∀ layout : Log.Layout, (∀ m ∈ layout.messages, ∃ text, Message.ofText text = .ok m) →
      Log.ofText layout.text = .ok ⟨layout.messages⟩) ∧
    ∀ (files : Files) (settings : Settings) (pretty : Bool) (path : String)
      (author? : Option String),
      let run := fun stream => (Command.posts path author? stream).run files settings pretty
      (∀ stream e, run stream = .error e ↔ PostsFailure files settings path author? e) ∧
      ∀ author file l, author?.or settings.selfId? = some author → files path = some file →
        Log.ofText file = .ok l → settings.pageSize.val ≤ settings.maximum.val →
        let posts := l.postsOf author
        let streamed := String.join (posts.map fun m => m.line ++ "\n")
        (∃ s, openService files path settings = .ok (s, .ofLog l) ∧
          (s.userPosts author? (.ofLog l)).1 = .ok posts) ∧
        run false = .ok (.print (messagesText pretty posts ++ "\n")) ∧
        run true = .ok (.print streamed) ∧ Log.ofText streamed = .ok ⟨posts⟩ := by
  refine ⟨fun layout h => Log.ofText_layout h, fun files settings pretty path author? => ?_⟩
  refine ⟨fun stream e => runPosts_eq_error_iff pretty stream, ?_⟩
  intro author file l hauthor hfile hlog hsize
  obtain ⟨heager, hstream⟩ := runPosts_of_log pretty hauthor hfile hlog hsize
  have hopen := openService_of_le hfile hlog hsize
  exact ⟨⟨_, hopen, userPosts_of_author hauthor⟩, heager, hstream, ofText_postsOf hlog author⟩

/-- Two posts of the identity in the settings, around a blank line and a vote of somebody else, the
first line end being a carriage return and a line feed, the last one missing. The stream fetches one
message a page. Without an identity and for a file that is not there the command fails. -/
theorem written_messages_read_back_mixed :
    let m := Sample.regularMessage 1
    let vote := Sample.regularMessage 4
    let blank : Log.Line := .blank [' ', '\t'] rfl
    let layout : Log.Layout :=
      ⟨[(.message m, .crlf), (blank, .lf), (.message vote, .lf)], .message m⟩
    let files : Files := fun path => if path = "feed" then some layout.text else none
    let settings := (Settings.default.withPageSize ⟨1, by decide⟩).withSelfId Sample.bob
    let line := "\x7b\"key\":\"%@bob.ed25519-1\",\"value\":\x7b\"previous\":null," ++
      "\"author\":\"@bob.ed25519\",\"sequence\":1,\"timestamp\":1000.0," ++
      "\"content\":\x7b\"type\":\"post\"\x7d\x7d,\"timestamp\":1005.0\x7d"
    (∀ m' ∈ layout.messages, ∃ text, Message.ofText text = .ok m') ∧
      Log.ofText layout.text = .ok ⟨[m, vote, m]⟩ ∧
      (Command.posts "feed" none true).run files settings false =
        .ok (.print (line ++ "\n" ++ line ++ "\n")) ∧
      Log.ofText (line ++ "\n" ++ line ++ "\n") = .ok ⟨[m, m]⟩ ∧
      (Command.posts "feed" none false).run files settings false =
        .ok (.print ("[" ++ line ++ "," ++ line ++ "]\n")) ∧
      (Command.posts "feed" none true).run files .default false =
        .error (.configuration "no --author given and FEEDQ_SELF_ID is not set") ∧
      (Command.posts "thread" none true).run files settings false =
        .error (.store (.io "cannot read thread")) := by
  intro m vote blank layout files settings line
  have hm : Message.ofText m.line = .ok m := Message.ofText_line_of_le (by decide)
  have hvote : Message.ofText vote.line = .ok vote := Message.ofText_line_of_le (by decide)
  have hposts : Log.postsOf ⟨[m, vote, m]⟩ Sample.bob = [m, m] := rfl
  have hline : m.line = line := by decide +kernel
  clear_value m vote line
  have hstreamed : String.join ([m, m].map fun m => m.line ++ "\n") =
      line ++ "\n" ++ line ++ "\n" := by
    simp [String.join, hline, String.append_assoc]
  have harray : messagesText false [m, m] ++ "\n" = "[" ++ line ++ "," ++ line ++ "]\n" := by
    rw [← hline]
    apply String.toList_injective
    simp [messagesText, jsonText, Message.line, Json.compact, Json.compactChars, Json.tokens,
      Json.tokensItems, Token.chars]
  have hmessages : layout.messages = [m, vote, m] := rfl
  have hdecoded : ∀ m' ∈ layout.messages, ∃ text, Message.ofText text = .ok m' := by
    rw [hmessages]
    exact List.forall_mem_cons.2 ⟨⟨_, hm⟩, List.forall_mem_cons.2 ⟨⟨_, hvote⟩,
      List.forall_mem_singleton.2 ⟨_, hm⟩⟩⟩
  obtain ⟨hlayout, hcommand⟩ := written_messages_read_back
  have hlog : Log.ofText layout.text = .ok ⟨[m, vote, m]⟩ := hmessages ▸ hlayout layout hdecoded
  have hauthor : (none : Option String).or settings.selfId? = some Sample.bob := rfl
  have hfile : files "feed" = some layout.text := if_pos rfl
  obtain ⟨-, heager, hstream, hread⟩ :=
    (hcommand files settings false "feed" none).2 _ _ _ hauthor hfile hlog (by decide)
  rw [hposts] at heager hstream hread
  rw [hstreamed] at hstream hread
  rw [harray] at heager
  refine ⟨hdecoded, hlog, hstream, hread, heager, ?_, ?_⟩
  · exact ((hcommand files .default false "feed" none).1 true _).2 (.noAuthor rfl)
  · have hmissing : files "thread" = none := if_neg (by decide)
    exact ((hcommand files settings false "thread" none).1 true _).2
      (.notOpened hauthor (.unreadable hmissing))

end CommandLine

end FeedQuery
