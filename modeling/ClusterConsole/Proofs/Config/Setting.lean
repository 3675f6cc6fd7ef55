/-
Showing one setting agrees with showing all of them (`setting_agrees`): what `config` prints is read
back as a table of all settings, and what it prints for one key is read back as the table of that
key and its value there. The two texts are written in different ways, the second from a value whose
inner fields have been sorted, so values are compared with their fields in order.
-/
import ClusterConsole.Proofs.Config.Document
import ClusterConsole.Proofs.Console.Wiring
import ClusterConsole.Proofs.Resolution.Settling
import ClusterConsole.Proofs.Toml.Sorting
import ClusterConsole.Proofs.Token.Spelling

namespace ClusterConsole

open Toml

/-! ## Documents -/

/-- A listing is printed line by line. -/
theorem Event.render_listing (lines : List Text) :
    (Event.listing lines).flatMap Event.render = lines.flatMap (· ++ ['\n']) := by
  have hdone : Event.done.render = [] := rfl
  have hline : ∀ l : Text, (Event.line l).render = l ++ ['\n'] := fun l => by
    simp [Event.render, Event.rendering, Event.line]
  rw [Event.listing, List.flatMap_append, List.flatMap_singleton, hdone, List.append_nil,
    List.flatMap_map]
  exact List.flatMap_congr fun l _ => hline l

/-- A document that is listed by its lines is printed as it is. -/
theorem Toml.render_listing_write {fields : List (Text × Toml)}
    (hkeys : (fields.map Prod.fst).Nodup) (hfits : FitsFields 1 fields) :
    (Event.listing (write fields).lines).flatMap Event.render = write fields := by
  rw [Event.render_listing, flatMap_lines_write hkeys hfits]

namespace Config

theorem read_document (c : Config) : read c.document = some c.settings := by
  rw [document, read_write (nodup_settings c) (fits_settings c), arranged_settings]

theorem fits_setting {c : Config} {key : Text} {v : Toml} (hv : field? key c.settings = some v) :
    Fits 1 v := by
  obtain ⟨before, after, hsettings, -⟩ := List.lookup_eq_some_iff.1 hv
  have hmem : (key, v) ∈ c.settings := by simp [hsettings]
  exact fits_of_mem (fits_settings c) hmem

end Config

/-! ## Lines for the handler of the configuration -/

namespace Console

variable {s : Console} {place : Nat} {c : Config}

/-- What is printed in response to a line. -/
def printed (s : Console) (line : Line) : Text := (s.submit line).2.events.flatMap Event.render

/-- The registration of the handler of the configuration at a place. -/
def configRegistration (place : Nat) : Registration :=
  ⟨⟨"config", place⟩, Handler.configPath, some Handler.configOptions,
    some "Show the console configuration"⟩

/-- `config` selects the registration of a running handler of the configuration `c`, and no
other. -/
structure OnlyConfig (s : Console) (place : Nat) (c : Config) : Prop where
  handler : s.handlers[place]? = some (.config c)
  selected : (s.catalog.select [Handler.configPath]).entries = [configRegistration place]

/-- Every configuration can be the one that a console shows. -/
theorem onlyConfig_ofHandlers (await : Bool) (c : Config) (service : RecordService) :
    (ofHandlers await [.config c] service).OnlyConfig 0 c := by
  rw [ofHandlers_await await false]
  exact ⟨rfl, rfl⟩

/-- A line of `config` and options that can be read shows what the options ask for. -/
theorem OnlyConfig.submit (h : s.OnlyConfig place c) {line : Line} {options : List Text}
    {p : ParsedOptions} (hasks : line.asks = true)
    (htokens : Token.tokenize line.text = .ok (("config" : Text) :: options))
    (hpath : CommandPath.ofTokens (("config" : Text) :: options) = .ok Handler.configPath)
    (hoptions : Options.parse (some Handler.configOptions) options = .ok p) :
    (s.submit line).2.events = c.events (p.value 'k') := by
  let cmd : Command :=
    ⟨Handler.configPath, configRegistration place, ⟨line, ("config" : Text) :: options⟩⟩
  have hsettle : s.catalog.settle line = .execute cmd :=
    Catalog.settle_of_select htokens hpath h.selected hoptions
  have hparse : cmd.parseOptions = .ok p := hoptions
  have hexecute : (Handler.config c).execute s.service.runs cmd =
      (.config c, .ok (.emit (c.events (p.value 'k')))) := by
    rw [Handler.execute, Handler.parsed, hparse]
    rfl
  have hhandler : s.handlers[cmd.registration.handler.place]? = some (.config c) := h.handler
  rw [Console.submit, if_pos hasks, hsettle, dispatch, execute_ok hhandler hexecute]
  rfl

/-- The line that asks for the whole configuration. -/
def wholeLine : Line := Line.ofRaw "config"

/-- The line that asks for a setting, its option written as one quoted token. -/
def keyLine (key : Text) : Line := Line.ofRaw ("config " ++ Token.quote ("--key=" ++ key))

theorem text_keyLine (key : Text) :
    (keyLine key).text = "config " ++ Token.quote ("--key=" ++ key) := by
  -- the line begins with a letter and ends with a quote
  refine Text.trim_eq_self_iff.2 ⟨by rintro c ⟨⟩; decide, ?_⟩
  intro c hc
  rw [Token.quote, ← List.cons_append, ← List.append_assoc, List.getLast?_append] at hc
  cases hc
  decide

theorem tokenize_keyLine (key : Text) :
    Token.tokenize (keyLine key).text = .ok ["config", "--key=" ++ key] := by
  have hword : Token.tokenize "config" = .ok ["config"] := by decide
  have hquoted : Token.tokenize (Token.quote ("--key=" ++ key)) = .ok ["--key=" ++ key] :=
    by simpa [Text.join] using Token.tokenize_quoted ["--key=" ++ key]
  have hfront : (keyLine key).text = "config" ++ ' ' :: Token.quote ("--key=" ++ key) :=
    text_keyLine key
  rw [hfront, Token.tokenize_append hword (by decide), hquoted]
  rfl

theorem asks_keyLine (key : Text) : (keyLine key).asks = true := by
  rw [Line.asks, Line.isEmpty, Line.isComment, text_keyLine]
  rfl

/-- Asking for the whole configuration is answered with its document. -/
theorem OnlyConfig.printed_whole (h : s.OnlyConfig place c) :
    s.printed wholeLine = c.document := by
  have htokens : Token.tokenize wholeLine.text = .ok [("config" : Text)] := by decide
  have hevents : (s.submit wholeLine).2.events = c.events none :=
    h.submit (p := ⟨[], []⟩) (by decide) htokens rfl rfl
  rw [printed, hevents]
  exact render_listing_write (Config.nodup_settings c) (Config.fits_settings c)

/-- Asking for a setting is answered with the events about it. -/
theorem OnlyConfig.events_key (h : s.OnlyConfig place c) (key : Text) :
    (s.submit (keyLine key)).2.events = c.events (some key) :=
  h.submit (p := ⟨[('k', [key])], []⟩) (asks_keyLine key) (tokenize_keyLine key) rfl rfl

/-- What is printed for a setting is the document of it alone. -/
theorem OnlyConfig.printed_key (h : s.OnlyConfig place c) {key : Text} {v : Toml}
    (hv : field? key c.settings = some v) :
    s.printed (keyLine key) = write [(key, v.sorted)] := by
  have hdocument : c.settingDocument key = some (write [(key, v.sorted)]) := by
    rw [Config.settingDocument, hv]
    rfl
  rw [printed, h.events_key, Config.events, hdocument]
  exact render_listing_write (List.nodup_singleton key)
    ⟨fits_sorted (Config.fits_setting hv), trivial⟩

/-! ## One setting and all of them -/

/-- What is printed for a key goes with the table that is printed for all of them. -/
structure SettingAgrees (s : Console) (key : Text) (table : List (Text × Toml)) : Prop where
  /-- The table is what the text of the whole configuration is read as. -/
  whole : Toml.read (s.printed wholeLine) = some table
  /-- For a key of the table, the text that is printed is read as this key with its value there,
  short of the order of fields inside it. -/
  present : ∀ v, field? key table = some v →
    ∃ w, Toml.read (s.printed (keyLine key)) = some [(key, w)] ∧ w.sorted = v.sorted
  /-- For any other key, one line says that there is none, and the response is over. -/
  absent : field? key table = none →
    (s.submit (keyLine key)).2.events = [Event.last ("No such configuration key: " ++ key)]

/-- Showing one setting agrees with showing all of them, for every configuration and every key. -/
theorem setting_agrees (h : s.OnlyConfig place c) (key : Text) :
    ∃ table, SettingAgrees s key table := by
  refine ⟨c.settings, ?_, ?_, ?_⟩
  · rw [h.printed_whole, Config.read_document]
  · intro v hv
    have hfits : Fits 1 v.sorted := fits_sorted (Config.fits_setting hv)
    obtain ⟨w, hread, hw⟩ := read_write_single key hfits
    rw [h.printed_key hv]
    exact ⟨w, hread, hw.trans (sorted_sorted v)⟩
  · intro hnone
    have hdocument : c.settingDocument key = none := by
      rw [Config.settingDocument, hnone]
      rfl
    rw [h.events_key, Config.events, hdocument]

/-- A configuration without a banner whose cluster has a member, shown as a whole and by the key of
the cluster, and the key of the banner that it lacks. -/
theorem setting_agrees_sample :
    let s := ofHandlers true [.config Config.quotedSample] .closed
    s.OnlyConfig 0 Config.quotedSample ∧ (∃ table, SettingAgrees s "cluster" table) ∧
      ∃ table, SettingAgrees s "banner" table ∧ field? "banner" table = none := by
  intro s
  have honly : s.OnlyConfig 0 Config.quotedSample := onlyConfig_ofHandlers _ _ _
  obtain ⟨table, hbanner⟩ := setting_agrees honly "banner"
  refine ⟨honly, setting_agrees honly "cluster", table, hbanner, ?_⟩
  have hwhole := hbanner.whole
  rw [honly.printed_whole, Config.read_document] at hwhole
  cases hwhole
  rfl

end Console

end ClusterConsole
