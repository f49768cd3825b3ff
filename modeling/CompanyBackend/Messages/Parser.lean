import Mathlib.Tactic.Common
import Mathlib.Data.List.Induction

/-!
# Mentions in the text of a message

The text is cut into tokens: escapes, code markers and mentions. At each place the longest token
is taken, and a character that begins none is skipped. An iterator over the tokens drops what
follows an escape and what stands between two code markers of one size. It looks ahead for the
closing marker, and when there is none it returns what it has looked at as it stands. Whatever it
yields stands in the text, in the same order.
-/

namespace Company

open List

inductive MessageToken where
  | escape
  | codeblockMarker (size : Nat)
  | userMention (id : String)
  | roleMention (id : String)
  | mentionEveryone
  | mentionOnline
  deriving DecidableEq, Repr

def isIdChar (c : Char) : Bool := "0123456789ABCDEFGHJKMNPQRSTVWXYZ".toList.contains c

def lexMention (mention : String → MessageToken) (text : List Char) :
    Option (MessageToken × List Char) :=
  match text.drop 26 with
  | '>' :: rest =>
    if (text.take 26).all isIdChar then some (mention (String.ofList (text.take 26)), rest)
    else none
  | _ => none

def lexWord (word : String) (token : MessageToken) (text : List Char) :
    Option (MessageToken × List Char) :=
  if word.toList.isPrefixOf text then some (token, text.drop word.toList.length) else none

/-- The longest token at the start of a text, and what follows it. `\x60` is the
backtick. -/
def lexToken : List Char → Option (MessageToken × List Char)
  | '\\' :: rest => some (.escape, rest)
  | '\x60' :: '\x60' :: '\x60' :: rest =>
    some (.codeblockMarker 3, rest.dropWhile fun c => c != '\x60' && c != '\n')
  | '\x60' :: '\x60' :: rest => some (.codeblockMarker 2, rest)
  | '\x60' :: rest => some (.codeblockMarker 1, rest)
  | '<' :: '@' :: rest => lexMention .userMention rest
  | '<' :: '%' :: rest => lexMention .roleMention rest
  | '@' :: rest =>
    (lexWord "everyone" .mentionEveryone rest).or (lexWord "online" .mentionOnline rest)
  | _ => none

/-- The tokens of a text. Each step takes a token or skips a character. -/
def lexSteps : Nat → List Char → List MessageToken
  | 0, _ => []
  | _, [] => []
  | n + 1, c :: text =>
    match lexToken (c :: text) with
    | some (token, rest) => token :: lexSteps n rest
    | none => lexSteps n text

def lexMessage (text : String) : List MessageToken := lexSteps text.length text.toList

/-- How a token is written. The language of a code block is no part of its
marker. -/
def MessageToken.literal : MessageToken → List Char
  | escape => ['\\']
  | codeblockMarker size => '\x60' :: replicate (size - 1) '\x60'
  | userMention id => '<' :: '@' :: id.toList ++ ['>']
  | roleMention id => '<' :: '%' :: id.toList ++ ['>']
  | mentionEveryone => '@' :: "everyone".toList
  | mentionOnline => '@' :: "online".toList

theorem MessageToken.literal_pos (token : MessageToken) : 0 < token.literal.length := by
  cases token <;> exact Nat.succ_pos _

variable {text rest : List Char} {token : MessageToken}

theorem lexMention_literal {mention : String → MessageToken}
    (lexed : lexMention mention text = some (token, rest)) :
    ∃ id : String, token = mention id ∧ text = id.toList ++ '>' :: rest := by
  rw [lexMention] at lexed
  split at lexed
  next found =>
    split at lexed
    · cases lexed
      exact ⟨_, rfl, by rw [String.toList_ofList, ← found, take_append_drop]⟩
    · cases lexed
  next => cases lexed

theorem lexWord_literal {word : String} {token' : MessageToken}
    (lexed : lexWord word token text = some (token', rest)) :
    token' = token ∧ text = word.toList ++ rest := by
  rw [lexWord] at lexed
  split at lexed
  next found =>
    obtain ⟨_, rfl⟩ := isPrefixOf_iff_prefix.mp found
    cases lexed
    exact ⟨rfl, by rw [drop_left]⟩
  next => cases lexed

/-- Behind the marker of a code block its language is skipped. -/
theorem lexToken_literal (lexed : lexToken text = some (token, rest)) :
    ∃ skipped, text = token.literal ++ (skipped ++ rest) := by
  unfold lexToken at lexed
  split at lexed
  case h_2 =>
    cases lexed
    exact ⟨_, congrArg (replicate 3 '\x60' ++ ·) takeWhile_append_dropWhile.symm⟩
  case h_5 | h_6 =>
    obtain ⟨id, rfl, rfl⟩ := lexMention_literal lexed
    exact ⟨[], by simp [MessageToken.literal]⟩
  case h_7 =>
    rcases Option.or_eq_some_iff.mp lexed with everyone | ⟨_, online⟩
    · obtain ⟨rfl, rfl⟩ := lexWord_literal everyone
      exact ⟨[], rfl⟩
    · obtain ⟨rfl, rfl⟩ := lexWord_literal online
      exact ⟨[], rfl⟩
  case h_8 => cases lexed
  all_goals
    cases lexed
    exact ⟨[], rfl⟩

theorem lexToken_shorter
    (lexed : lexToken text = some (token, rest)) : rest.length < text.length := by
  obtain ⟨skipped, rfl⟩ := lexToken_literal lexed
  have written := token.literal_pos
  simp only [length_append]
  omega

/-- The text comes to its end. -/
theorem lexSteps_congr {n m : Nat} (enough : text.length ≤ n)
    (enough' : text.length ≤ m) : lexSteps n text = lexSteps m text := by
  induction n generalizing m text with
  | zero =>
    obtain rfl : text = [] := length_eq_zero_iff.mp (Nat.le_zero.mp enough)
    cases m <;> rfl
  | succ n ih =>
    cases text with
    | nil => cases m <;> rfl
    | cons c text =>
      cases m with
      | zero => cases enough'
      | succ m =>
        rw [lexSteps, lexSteps]
        simp only [length_cons] at enough enough'
        split
        next lexed =>
          have shorter := lexToken_shorter lexed
          simp only [length_cons] at shorter
          rw [ih (m := m) (by omega) (by omega)]
        next => exact ih (by omega) (by omega)

/-- The tokens that are left, and those that have been looked at. -/
structure MessageParserIterator where
  inner : List MessageToken
  temp : List MessageToken := []

/-- What follows the next code marker of a size. -/
def afterMarker (size : Nat) : List MessageToken → Option (List MessageToken)
  | [] => none
  | token :: rest => if token = .codeblockMarker size then some rest else afterMarker size rest

namespace MessageParserIterator

def next (iterator : MessageParserIterator) : Option (MessageToken × MessageParserIterator) :=
  match iterator.temp, iterator.inner with
  | token :: temp, inner => some (token, { inner, temp })
  | [], [] => none
  | [], .escape :: inner => some (.escape, { inner := inner.drop 1 })
  | [], .codeblockMarker size :: inner =>
    match afterMarker size inner with
    | some rest => some (.codeblockMarker size, { inner := rest, temp := [.codeblockMarker size] })
    | none => some (.codeblockMarker size, { inner := [], temp := inner })
  | [], token :: inner => some (token, { inner })

/-- More steps than the iterator can take. -/
def size (iterator : MessageParserIterator) : Nat :=
  2 * iterator.inner.length + iterator.temp.length

def collect : Nat → MessageParserIterator → List MessageToken
  | 0, _ => []
  | n + 1, iterator =>
    match iterator.next with
    | some (token, iterator') => token :: collect n iterator'
    | none => []

theorem afterMarker_sublist {size : Nat} {tokens rest : List MessageToken}
    (found : afterMarker size tokens = some rest) : .codeblockMarker size :: rest <+ tokens := by
  induction tokens with
  | nil => cases found
  | cons token tokens ih =>
    rw [afterMarker] at found
    split at found
    next marker =>
      cases found
      exact marker ▸ Sublist.refl _
    next => exact (ih found).cons _

/-- A step yields the first token, and it uses up tokens. -/
theorem next_spec {iterator iterator' : MessageParserIterator}
    (stepped : iterator.next = some (token, iterator')) :
    token :: (iterator'.temp ++ iterator'.inner) <+ iterator.temp ++ iterator.inner ∧
      iterator'.size < iterator.size := by
  revert stepped
  fun_cases next iterator with
  | case2 => nofun
  | case3 inner left read =>
    rintro ⟨⟩
    simp only [size, left, read, length_cons, length_drop]
    exact ⟨(drop_sublist 1 inner).cons_cons _, by omega⟩
  | case4 n inner left read rest found =>
    rintro ⟨⟩
    have kept := afterMarker_sublist found
    have shorter := kept.length_le
    simp only [size, left, read, length_cons] at shorter ⊢
    exact ⟨kept.cons_cons _, by omega⟩
  | _ =>
    rintro ⟨⟩
    simp [size, *] <;> omega

/-- The iterator ends by itself. -/
theorem collect_congr {n m : Nat} {iterator : MessageParserIterator} (enough : iterator.size ≤ n)
    (enough' : iterator.size ≤ m) : collect n iterator = collect m iterator := by
  induction n generalizing m iterator with
  | zero =>
    cases m with
    | zero => rfl
    | succ m =>
      rw [collect, collect]
      split
      next stepped => exact absurd (next_spec stepped).2 (by omega)
      next => rfl
  | succ n ih =>
    cases m with
    | zero =>
      rw [collect, collect]
      split
      next stepped => exact absurd (next_spec stepped).2 (by omega)
      next => rfl
    | succ m =>
      rw [collect, collect]
      split
      next stepped =>
        have smaller := (next_spec stepped).2
        rw [ih (m := m) (by omega) (by omega)]
      next => rfl

end MessageParserIterator

def parseMessageIter (text : String) : List MessageToken :=
  let iterator : MessageParserIterator := { inner := lexMessage text }
  iterator.collect iterator.size

/-- The mentions in a text. The ids are kept as lists without duplicates. -/
structure MessageResults where
  userMentions : List String := []
  roleMentions : List String := []
  mentionsEveryone : Bool := false
  mentionsOnline : Bool := false
  deriving DecidableEq, Repr

def MessageResults.add (results : MessageResults) : MessageToken → MessageResults
  | .escape | .codeblockMarker _ => results
  | .userMention id => { results with userMentions := results.userMentions.insert id }
  | .roleMention id => { results with roleMentions := results.roleMentions.insert id }
  | .mentionEveryone => { results with mentionsEveryone := true }
  | .mentionOnline => { results with mentionsOnline := true }

def parseMessage (text : String) : MessageResults :=
  (parseMessageIter text).foldl MessageResults.add {}

example : parseMessage "\x60@everyone\x60 \\@online <%01FD58YK5W7QRV5H3D64KTQYX3>" =
    { roleMentions := ["01FD58YK5W7QRV5H3D64KTQYX3"] } := by decide +kernel

/-! ## Pairs of code markers -/

open MessageParserIterator

/-- The tokens of a stream that are left when each code marker, from left to
right, is paired with the next one of its size, and the pairs are taken out with
all that is between them. -/
inductive OutsidePairs : List MessageToken → List MessageToken → Prop
  | nil : OutsidePairs [] []
  | token {token : MessageToken} {tokens outside : List MessageToken}
      (unmarked : ∀ size, token ≠ .codeblockMarker size) (rest : OutsidePairs tokens outside) :
      OutsidePairs (token :: tokens) (token :: outside)
  | pair {size : Nat} {inside tokens outside : List MessageToken}
      (first : .codeblockMarker size ∉ inside) (rest : OutsidePairs tokens outside) :
      OutsidePairs (.codeblockMarker size :: inside ++ .codeblockMarker size :: tokens) outside

theorem afterMarker_append {size : Nat} {inside rest : List MessageToken}
    (first : .codeblockMarker size ∉ inside) :
    afterMarker size (inside ++ .codeblockMarker size :: rest) = some rest := by
  induction inside with
  | nil => simp [afterMarker]
  | cons token inside ih =>
    rw [mem_cons, not_or] at first
    rw [cons_append, afterMarker, if_neg (Ne.symm first.1), ih first.2]

variable {tokens outside : List MessageToken}

/-- Every marker finds the one that closes it, so the iterator never gives back
what it has looked at. -/
theorem OutsidePairs.foldl_collect
    (paired : OutsidePairs tokens outside) (escapeless : .escape ∉ tokens) {n : Nat}
    (enough : 2 * tokens.length ≤ n) (results : MessageResults) :
    (collect n { inner := tokens }).foldl MessageResults.add results =
      outside.foldl MessageResults.add results := by
  induction paired generalizing n results with
  | nil => cases n <;> rfl
  | @token token tokens outside unmarked _ ih =>
    obtain ⟨n, rfl⟩ : ∃ m, n = m + 1 := ⟨n - 1, by simp at enough; omega⟩
    rw [mem_cons, not_or] at escapeless
    have next : next { inner := token :: tokens } = some (token, { inner := tokens }) := by
      cases token with
      | escape => exact absurd rfl escapeless.1
      | codeblockMarker size => exact absurd rfl (unmarked size)
      | _ => rfl
    rw [collect, next, foldl_cons, foldl_cons]
    exact ih escapeless.2 (by simp at enough; omega) _
  | @pair size inside tokens outside first _ ih =>
    simp only [cons_append, length_cons, length_append] at enough
    obtain ⟨n, rfl⟩ : ∃ m, n = m + 2 := ⟨n - 2, by omega⟩
    have next :
        next { inner := .codeblockMarker size :: inside ++ .codeblockMarker size :: tokens } =
        some (.codeblockMarker size, { inner := tokens, temp := [.codeblockMarker size] }) := by
      simp only [cons_append, MessageParserIterator.next, afterMarker_append first]
    rw [collect, next]
    refine ih ?_ (by omega) _
    simp only [cons_append, mem_cons, mem_append, not_or] at escapeless
    exact escapeless.2.2.2

/-- What is mentioned by a token, and nothing else. -/
structure MessageResults.Reports (results : MessageResults) (tokens : List MessageToken) :
    Prop where
  users : ∀ id, id ∈ results.userMentions ↔ .userMention id ∈ tokens
  roles : ∀ id, id ∈ results.roleMentions ↔ .roleMention id ∈ tokens
  everyone : results.mentionsEveryone ↔ .mentionEveryone ∈ tokens
  online : results.mentionsOnline ↔ .mentionOnline ∈ tokens

theorem foldl_add_reports (tokens : List MessageToken) :
    (tokens.foldl MessageResults.add {}).Reports tokens := by
  induction tokens using List.reverseRecOn with
  | nil => constructor <;> simp
  | append_singleton tokens token ih =>
    obtain ⟨users, roles, everyone, online⟩ := ih
    rw [foldl_append, foldl_cons, foldl_nil]
    cases token <;> constructor <;> simp [MessageResults.add, *, or_comm]

/-- Without escapes, and if every code marker finds the one that closes it, the
mentions that are reported are those outside of the pairs: a user, a role,
everyone or who is online is reported if and only if a token outside of the
pairs mentions them. -/
theorem mentions_outside_pairs
    (escapeless : .escape ∉ tokens) (paired : OutsidePairs tokens outside) :
    (∀ n, 2 * tokens.length ≤ n → (collect n { inner := tokens }).foldl MessageResults.add {} =
      outside.foldl MessageResults.add {}) ∧
    (∀ text, lexMessage text = tokens →
      parseMessage text = outside.foldl MessageResults.add {}) ∧
    (outside.foldl MessageResults.add {}).Reports outside := by
  refine ⟨fun _ enough => paired.foldl_collect escapeless enough {}, ?_, foldl_add_reports outside⟩
  rintro text rfl
  exact paired.foldl_collect escapeless (Nat.le_refl _) {}

/-- A marker of another size does not close a pair. -/
theorem mentions_outside_pairs_nested :
    parseMessage "\x60a\x60\x60@everyone\x60 @online" = { mentionsOnline := true } := by
  have unmarked : ∀ size, MessageToken.mentionOnline ≠ .codeblockMarker size := by
    rintro _ ⟨⟩
  have paired : OutsidePairs (.codeblockMarker 1 :: [.codeblockMarker 2, .mentionEveryone] ++
      .codeblockMarker 1 :: [.mentionOnline]) [.mentionOnline] :=
    .pair (by decide) (.token unmarked .nil)
  exact (mentions_outside_pairs (by decide) paired).2.1 _ (by decide +kernel)

/-- The tokens stand in the text, one after the other. -/
inductive StandIn : List MessageToken → List Char → Prop
  | nil : StandIn [] []
  | skip {tokens : List MessageToken} {text : List Char} (skipped : List Char)
      (rest : StandIn tokens text) : StandIn tokens (skipped ++ text)
  | token {tokens : List MessageToken} {text : List Char} (token : MessageToken)
      (rest : StandIn tokens text) : StandIn (token :: tokens) (token.literal ++ text)

theorem StandIn.sublist {kept : List MessageToken} (stand : StandIn tokens text)
    (sub : kept <+ tokens) : StandIn kept text := by
  -- A token that is not kept is text that is skipped.
  induction stand generalizing kept with
  | nil => exact sublist_nil.mp sub ▸ .nil
  | skip skipped _ ih => exact .skip skipped (ih sub)
  | token token _ ih =>
    cases sub with
    | cons _ sub => exact .skip token.literal (ih sub)
    | cons_cons _ sub => exact .token token (ih sub)

end Company
