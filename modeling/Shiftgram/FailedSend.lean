import Shiftgram.Composer
import Shiftgram.DataManagers

/- A typed message whose requests may fail. `didPressSend` asks for the friend's language and then,
   where it is another one, for a translation. The handler of the first request casts what it gets by
   force; that of the second calls back with a translation or says nothing. The composer is cleared
   beside the translation, not after it.

   `kept_iff`: the screen does not trap, and the text is in a record or still in the composer, exactly
   if the language request, once it is answered, is answered with a language, and this is the own one
   or the translator calls back.

   Assumed: the library clears the composer when a message is finished, and passes the composer's text
   to `didPressSend`, less the blanks around it. -/
namespace Shiftgram

/-! ## The translator -/

namespace ROGoogleTranslate

/-- What the session hands to the completion handler of a request. -/
structure Reply where
  /-- `error` is not nil. -/
  failed : Bool
  /-- The status code, of an HTTP response. -/
  statusCode : Option Int
  /-- The JSON of `data`, where there is data and it is JSON. -/
  json : Option Json

/-- What becomes of a request. -/
structure Outcome where
  /-- The text can be encoded and the address is a URL. -/
  isURL : Bool
  reply : Option Reply

/-- The pyramid of optional casts. -/
def translatedText (json : Json) : Option String := do
  let json ← json.asDictionary
  let jsonData ← (json.lookup "data").bind Json.asDictionary
  let items ← (jsonData.lookup "translations").bind Json.asArray
  let translations ← items.mapM Json.asDictionary
  let translation ← translations.head?
  stringAt translation "translatedText"

/-- What the completion handler passes to the callback, nothing where it does not call it. -/
def completionHandler (r : Reply) : Option String :=
  if r.failed then none
  else
    match r.statusCode with
    | some code => if code = 200 then r.json.bind translatedText else none
    | none => none

def translate (apiKey : String) (outcome : Outcome) : Option String :=
  if apiKey = "" then none
  else if outcome.isURL then outcome.reply.bind completionHandler
  else none

/-- The translator calls back. -/
def CallsBack (outcome : Outcome) : Prop :=
  outcome.isURL = true ∧ ∃ r json, outcome.reply = some r ∧ r.failed = false ∧
    r.statusCode = some 200 ∧ r.json = some json ∧ translatedText json ≠ none

theorem completionHandler_iff (r : Reply) :
    completionHandler r ≠ none ↔ r.failed = false ∧ r.statusCode = some 200 ∧
      ∃ json, r.json = some json ∧ translatedText json ≠ none := by
  obtain ⟨failed, statusCode, json⟩ := r
  cases failed with
  | true => simp [completionHandler]
  | false =>
    cases statusCode with
    | none => simp [completionHandler]
    | some code =>
      by_cases hcode : code = 200
      · cases json <;> simp [completionHandler, hcode]
      · simp [completionHandler, hcode]

theorem translate_iff {apiKey : String} (h : apiKey ≠ "") (outcome : Outcome) :
    translate apiKey outcome ≠ none ↔ CallsBack outcome := by
  obtain ⟨isURL, reply⟩ := outcome
  cases isURL with
  | false => simp [translate, CallsBack]
  | true =>
    cases reply with
    | none => simp [translate, CallsBack]
    | some r =>
      have hhandler := completionHandler_iff r
      simp only [translate, CallsBack, if_neg h, if_true, Option.bind_some, hhandler,
        Option.some.injEq, true_and]
      refine ⟨fun hr => ?_, ?_⟩
      · obtain ⟨hfailed, hcode, json, hjson⟩ := hr
        exact ⟨r, json, rfl, hfailed, hcode, hjson⟩
      · rintro ⟨_, json, rfl, hfailed, hcode, hjson⟩
        exact ⟨hfailed, hcode, json, hjson⟩

end ROGoogleTranslate

namespace FailedSend

/-- What the chat screen holds fixed, and what the translator does with each request. -/
structure Sender where
  peers : Peers
  language : String
  /-- The source sets a literal here. -/
  apiKey : String
  apiKey_ne : apiKey ≠ ""
  service : ROGoogleTranslateParams → ROGoogleTranslate.Outcome

/-- The composer, and the records written at the conversation's node for this press. -/
structure Screen where
  composer : String
  records : List Swift.Dictionary
  deriving DecidableEq, Repr

def Screen.finishSendingMessage (s : Screen) : Screen := { s with composer := "" }

/-- `ref.setValue(message)` -/
def Screen.setValue (s : Screen) (message : Swift.Dictionary) : Screen :=
  { s with records := s.records ++ [message] }

variable (c : Sender)

/-- The completion of `getFriendLanguage`, and then the callback of the translator, if it comes. -/
def languageAnswered (s : Screen) (text value : String) : Screen :=
  let user := Swift.string c.peers.own
  if c.language = value then
    (s.setValue (Composer.message user text text)).finishSendingMessage
  else
    let sent := s.finishSendingMessage
    match ROGoogleTranslate.translate c.apiKey (c.service ⟨c.language, value, text⟩) with
    | some value => sent.setValue (Composer.message user text value)
    | none => sent

/-- A press of Send, to the end of its requests; the first one may never be answered. -/
def didPressSend (text : Option String) (response : Option DataResponse) : Option Screen :=
  let screen : Screen := ⟨text.getD "", []⟩
  match text with
  | none => some screen
  | some text =>
    if text = "" then some screen
    else do
      let _ ← frId c.peers.conversationName c.peers.own.toInt
      match response with
      | none => some screen
      | some response =>
        (UserDataManager.getFriendLanguage response).map fun values =>
          values.foldl (fun s value => languageAnswered c s text value) screen

/-- The screen has not trapped, and the text is in a record or in the composer. -/
def Kept (text : String) (screen : Option Screen) : Prop :=
  ∃ s, screen = some s ∧
    ((∃ message ∈ s.records, message.value "ownText" = some text) ∨ s.composer = text)

/-- The response has a language, and that is the own one or the translator calls back. -/
def Translatable (text : String) (response : DataResponse) : Prop :=
  ∃ entries value, response.value = some (.dictionary entries) ∧
    stringAt entries "Language" = some value ∧
    (c.language = value ∨ ROGoogleTranslate.CallsBack (c.service ⟨c.language, value, text⟩))

theorem getFriendLanguage_iff (response : DataResponse) (values : List String) :
    UserDataManager.getFriendLanguage response = some values ↔
      ∃ entries value, response.value = some (.dictionary entries) ∧
        stringAt entries "Language" = some value ∧ values = [value] := by
  simp only [UserDataManager.getFriendLanguage, Option.bind_eq_bind, Option.bind_eq_some_iff,
    asDictionary_iff, Option.some.injEq]
  refine ⟨?_, ?_⟩
  · rintro ⟨_, hvalue, entries, rfl, value, hlanguage, rfl⟩
    exact ⟨entries, value, hvalue, hlanguage, rfl⟩
  · rintro ⟨entries, value, hvalue, hlanguage, rfl⟩
    exact ⟨_, hvalue, entries, rfl, value, hlanguage, rfl⟩

theorem message_ownText (user own trans : String) :
    (Composer.message user own trans).value "ownText" = some own := by
  simp [Composer.message, Swift.Dictionary.value, List.lookup_cons]

/-- Without a record only the composer can have the text. -/
theorem kept_unwritten {text composer : String} : Kept text (some ⟨composer, []⟩) ↔ composer = text := by
  refine ⟨?_, fun h => ⟨_, rfl, .inr h⟩⟩
  rintro ⟨s, hs, hkept⟩
  obtain rfl := Option.some.inj hs
  exact hkept.resolve_left fun ⟨message, hmessage, _⟩ => List.not_mem_nil hmessage

/-- An answered request clears the composer; the text is kept exactly if a record is written. -/
theorem languageAnswered_iff {text : String} (h : text ≠ "") (value : String) :
    Kept text (some (languageAnswered c ⟨text, []⟩ text value)) ↔
      c.language = value ∨ ROGoogleTranslate.CallsBack (c.service ⟨c.language, value, text⟩) := by
  unfold languageAnswered
  by_cases hsame : c.language = value
  · refine iff_of_true ⟨_, rfl, .inl ?_⟩ (.inl hsame)
    rw [if_pos hsame]
    exact ⟨_, List.mem_singleton_self _, message_ownText _ text text⟩
  · rw [or_iff_right hsame, ← ROGoogleTranslate.translate_iff c.apiKey_ne]
    simp only [if_neg hsame]
    cases ROGoogleTranslate.translate c.apiKey (c.service ⟨c.language, value, text⟩) with
    | some trans =>
      refine iff_of_true ⟨_, rfl, .inl ?_⟩ (Option.some_ne_none trans)
      exact ⟨_, List.mem_singleton_self _, message_ownText _ text trans⟩
    | none =>
      -- neither a record nor the composer has it
      refine iff_of_false ?_ fun hne => hne rfl
      intro hkept
      exact h (kept_unwritten.mp hkept).symm

/-- A text that is sent is kept exactly if the language request is not answered, or answered with the
    own language, or with another one and the translator calls back. -/
theorem kept_iff {text : String} (h : text ≠ "") (response : Option DataResponse) :
    Kept text (didPressSend c (some text) response) ↔
      ∀ r, response = some r → Translatable c text r := by
  have hpress : didPressSend c (some text) response =
      match response with
      | none => some ⟨text, []⟩
      | some r => (UserDataManager.getFriendLanguage r).map fun values =>
          values.foldl (fun s value => languageAnswered c s text value) ⟨text, []⟩ := by
    unfold didPressSend
    simp only [if_neg h, frId_conversationName, Option.getD_some, Option.bind_eq_bind,
      Option.bind_some]
  rw [hpress]
  cases response with
  | none => exact iff_of_true ⟨_, rfl, .inr rfl⟩ fun _ hr => absurd hr (Option.some_ne_none _).symm
  | some r =>
    simp only [Option.some.injEq, forall_eq']
    refine ⟨fun hkept => ?_, ?_⟩
    · obtain ⟨s, hs, hrest⟩ := hkept
      obtain ⟨values, hvalues, rfl⟩ := Option.map_eq_some_iff.mp hs
      obtain ⟨entries, value, hdictionary, hlanguage, rfl⟩ := (getFriendLanguage_iff r values).mp hvalues
      refine ⟨entries, value, hdictionary, hlanguage, ?_⟩
      exact (languageAnswered_iff c h value).mp ⟨_, rfl, hrest⟩
    · rintro ⟨entries, value, hdictionary, hlanguage, hanswer⟩
      rw [(getFriendLanguage_iff r [value]).mpr ⟨entries, value, hdictionary, hlanguage, rfl⟩]
      exact (languageAnswered_iff c h value).mpr hanswer

/-- User 2 writes English to user 3; no translation succeeds. -/
def offline : Sender where
  peers := .twoThree
  language := "en"
  apiKey := "key"
  apiKey_ne := by decide
  service _ := ⟨true, some ⟨true, none, none⟩⟩

/-- The server says that the friend speaks German. -/
def german : DataResponse := ⟨some 200, some (.dictionary [("Language", .string "de")])⟩

/-- The translation fails: there is no record, and the composer is empty. -/
theorem offline_loses :
    didPressSend offline (some "hello") (some german) = some ⟨"", []⟩ ∧
      ¬ Kept "hello" (didPressSend offline (some "hello") (some german)) := by
  have hscreen : didPressSend offline (some "hello") (some german) = some ⟨"", []⟩ := by decide
  refine ⟨hscreen, ?_⟩
  rw [hscreen, kept_unwritten]
  decide

/-- A friend who speaks English needs no translation. -/
theorem english_kept :
    Kept "hello" (didPressSend offline (some "hello")
      (some ⟨some 200, some (.dictionary [("Language", .string "en")])⟩)) := by
  refine (kept_iff offline (by decide) _).mpr fun r hr => ?_
  obtain rfl := Option.some.inj hr
  exact ⟨_, "en", rfl, rfl, .inl rfl⟩

end FailedSend

end Shiftgram
