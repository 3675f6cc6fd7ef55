/-
How a running console is wired. Lines change neither the catalog nor the handlers, short of the
filter that a `database` command leaves behind (`submit_frame`, `submitAll_frame`). In a console
that has been set up every registration of the catalog leads to the handler that made it
(`served_of_setup`), and without scripts there are only the handlers that come with the console. Once
all handlers have answered, it makes no difference whether queries had to wait (`ofHandlers_await`).
-/
import ClusterConsole.Console
import ClusterConsole.Proofs.Except

namespace ClusterConsole

/-! ## Handlers -/

namespace Handler

/-- The handler without the filter that a command may have left behind. -/
def unfiltered : Handler → Handler
  | .database _ => .database none
  | h => h

/-- Whether the handler is a scripted one. -/
def isScripted : Handler → Bool
  | .scripted _ => true
  | _ => false

@[simp] theorem unfiltered_execute (h : Handler) (storeRuns : Bool) (c : Command) :
    (h.execute storeRuns c).1.unfiltered = h.unfiltered := by
  cases h <;> rfl

/-- A reply that can be read uses the filter up. -/
theorem hear_store (filter : Option Bool) (e : Envelope) :
    (Handler.database filter).hear (.store e) = match e.openReply with
      | .ok reply => (.database none, .ok (Database.replyEvents filter reply))
      | .error err => (.database filter, .error err) := rfl

@[simp] theorem unfiltered_hear (h : Handler) (a : Answer) :
    (h.hear a).1.unfiltered = h.unfiltered := by
  cases h with
  | database filter =>
    cases a with
    | registry r => rfl
    | store e => rw [hear_store]; cases e.openReply <;> rfl
  | help => cases a <;> rfl
  | exit => rfl
  | config c => rfl
  | cluster members => rfl
  | scripted s => rfl

theorem registrations_unfiltered (h : Handler) : h.unfiltered.registrations = h.registrations := by
  cases h <;> rfl

theorem isScripted_unfiltered (h : Handler) : h.unfiltered.isScripted = h.isScripted := by
  cases h <;> rfl

/-- What a handler registers refers to its place. -/
theorem place_of_registrations {h : Handler} {place : Nat} {rs : List Registration}
    (hrs : h.registrations place = some rs) {r : Registration} (hr : r ∈ rs) :
    r.handler.place = place := by
  cases h with
  | scripted s =>
    obtain ⟨cs, -, rfl⟩ := Option.map_eq_some_iff.1 hrs
    obtain ⟨c, -, rfl⟩ := List.mem_map.1 hr
    rfl
  | exit =>
    cases hrs
    obtain ⟨p, -, rfl⟩ := List.mem_map.1 hr
    rfl
  | help | config _ | cluster _ | database _ =>
    cases hrs
    rw [List.mem_singleton] at hr
    rw [hr]

theorem isScripted_of_ofName {c : Config} {name : Text} {h : Handler}
    (hn : ofName c name = .ok h) : h.isScripted = false := by
  unfold ofName named? at hn
  split at hn
  · rename_i h' hs
    cases hn
    split_ifs at hs <;> (cases hs; rfl)
  · cases hn

theorem start_ok {hasService : Bool} {running hs started : List Handler}
    (h : start hasService running hs = (started, .ok ())) : started = running ++ hs := by
  induction hs generalizing running with
  | nil =>
    cases h
    simp
  | cons a hs ih =>
    unfold start at h
    split_ifs at h
    · cases h
    · rw [ih h, List.append_assoc]
      rfl

/-- Installing handlers by name appends handlers that come with the console. -/
theorem install_ok {c : Config} {hasService : Bool} {running installed : List Handler}
    {names : List Text} (h : install c hasService running names = (installed, .ok ())) :
    ∃ hs, installed = running ++ hs ∧ ∀ a ∈ hs, a.isScripted = false := by
  unfold install at h
  split at h
  · cases h
  · rename_i hs hnames
    refine ⟨hs, start_ok h, ?_⟩
    -- on the names alone; what was started plays no part in where handlers come from
    clear h
    induction names generalizing hs with
    | nil =>
      cases hnames
      simp
    | cons name names ih =>
      rw [List.mapM_cons] at hnames
      obtain ⟨a, ha, hrest⟩ := bind_eq_ok.1 hnames
      obtain ⟨as, has, hcons⟩ := bind_eq_ok.1 hrest
      cases hcons
      intro b hb
      rcases List.mem_cons.1 hb with rfl | hb
      · exact isScripted_of_ofName ha
      · exact ih _ has b hb

end Handler

/-! ## The catalog of the registry -/

theorem Catalog.mem_addAll {c : Catalog} {rs : List Registration} {r : Registration}
    (h : r ∈ (c.addAll rs).entries) : r ∈ c.entries ∨ r ∈ rs := by
  induction rs generalizing c with
  | nil => exact Or.inl h
  | cons a rs ih =>
    rcases ih (c := c.add a) h with h | h
    · rcases Ascending.mem_insert _ _ h with rfl | h
      · exact Or.inr (by simp)
      · exact Or.inl h
    · exact Or.inr (by simp [h])

/-- The catalog after the registrations of responses that arrive one after another. -/
def Catalog.takeAll (c : Catalog) (rs : List Response) : Catalog :=
  rs.foldl (fun c r => c.addAll r.catalog.entries) c

namespace Registry

variable {ρ : Type}

theorem catalog_handle (r : Registry ρ) (m : RegistryMessage ρ) :
    (r.handle m).1.catalog = match m with
      | .registered response => r.catalog.addAll response.catalog.entries
      | .query _ _ => r.catalog := by
  cases m with
  | registered response =>
    simp only [handle]
    split_ifs <;> rfl
  | query q replyTo =>
    simp only [handle]
    split_ifs <;> rfl

/-- An entry of the catalog was there before, or came with one of the messages. -/
theorem mem_handleAll {r : Registry ρ} {ms : List (RegistryMessage ρ)} {e : Registration}
    (h : e ∈ (r.handleAll ms).1.catalog.entries) :
    e ∈ r.catalog.entries ∨
      ∃ response, .registered response ∈ ms ∧ e ∈ response.catalog.entries := by
  induction ms generalizing r with
  | nil => exact Or.inl h
  | cons m ms ih =>
    rcases ih (r := (r.handle m).1) h with h | ⟨response, hm, h⟩
    · rw [catalog_handle] at h
      cases m with
      | registered response =>
        rcases Catalog.mem_addAll h with h | h
        · exact Or.inl h
        · exact Or.inr ⟨response, by simp, h⟩
      | query q replyTo => exact Or.inl h
    · exact Or.inr ⟨response, by simp [hm], h⟩

/-- The catalog of a started registry is made of the responses of the handlers, one after the other.
Whether the registry waits for them makes no difference to it. -/
theorem catalog_started (await : Bool) (conducts : List Conduct) :
    (started (ρ := ρ) await conducts).catalog =
      Catalog.empty.takeAll (conducts.filterMap Conduct.response?) := by
  have hall : ∀ (rs : List Response) (r : Registry ρ),
      (r.handleAll (rs.map .registered)).1.catalog = r.catalog.takeAll rs := by
    intro rs
    induction rs with
    | nil => exact fun r => rfl
    | cons response rs ih =>
      intro r
      have hnext := ih (r.handle (.registered response)).1
      rw [catalog_handle] at hnext
      exact hnext
  rw [started, ← List.map_filterMap, hall]
  rfl

/-- An entry of the catalog of a started registry is one that a handler has answered with. -/
theorem mem_started {await : Bool} {conducts : List Conduct} {e : Registration}
    (h : e ∈ (started (ρ := ρ) await conducts).catalog.entries) :
    ∃ rs, Conduct.answers rs ∈ conducts ∧ e ∈ rs := by
  rcases mem_handleAll h with h | ⟨response, hm, he⟩
  · exact absurd h (by simp [asking, expect, new, Catalog.empty])
  · obtain ⟨c, hc, hr⟩ := List.mem_filterMap.1 hm
    obtain ⟨response', hr', heq⟩ := Option.map_eq_some_iff.1 hr
    cases heq
    cases c with
    | answers rs =>
      cases hr'
      refine ⟨rs, hc, ?_⟩
      rcases Catalog.mem_addAll he with h | h
      · exact absurd h (by simp [Catalog.empty])
      · exact h
    | fails | drops | gone =>
      cases hr'
      exact absurd he (by simp [Catalog.empty])
    | keeps => cases hr'

end Registry

/-! ## Consoles -/

namespace Console

/-- Every registration of the catalog leads to the running handler that made it. -/
def Served (s : Console) : Prop :=
  ∀ r ∈ s.catalog.entries, ∃ h rs, s.handlers[r.handler.place]? = some h ∧
    h.registrations r.handler.place = some rs ∧ r ∈ rs

/-- Whether the registry waits makes no difference once all handlers have answered. -/
theorem ofHandlers_await (await await' : Bool) (handlers : List Handler) (service : RecordService) :
    ofHandlers await handlers service = ofHandlers await' handlers service := by
  simp only [ofHandlers, Registry.catalog_started]

theorem served_ofHandlers (await : Bool) (handlers : List Handler) (service : RecordService) :
    (ofHandlers await handlers service).Served := by
  intro r hr
  obtain ⟨rs, hrs, hmem⟩ := Registry.mem_started hr
  obtain ⟨⟨h, i⟩, hi, hc⟩ := List.mem_map.1 hrs
  have hget : handlers[i]? = some h := List.mem_zipIdx_iff_getElem?.1 hi
  have hreg : h.registrations i = some rs := by
    unfold Handler.conduct at hc
    split at hc
    · rename_i rs' h'
      cases hc
      exact h'
    · cases hc
  have hplace := Handler.place_of_registrations hreg hmem
  rw [hplace]
  exact ⟨h, rs, hget, hreg, hmem⟩

/-- What a setup that succeeds gives: a console of the scripts and of handlers that come with it,
each of which has been asked for its registrations. -/
theorem eq_of_setup {c : Config} {service : Option RecordService} {scripts : List Script}
    {s : Console} (h : setup c service scripts = .ok s) :
    ∃ hs, s = ofHandlers c.awaitRegistrations (scripts.map .scripted ++ hs)
      (service.getD .closed) ∧ ∀ a ∈ hs, a.isScripted = false := by
  unfold setup at h
  obtain ⟨_, -, h⟩ := bind_eq_ok.1 h
  split at h
  rename_i handlers result hinstall
  obtain ⟨_, hok, h⟩ := bind_eq_ok.1 h
  subst hok
  obtain ⟨hs, rfl, hns⟩ := Handler.install_ok hinstall
  cases h
  exact ⟨hs, rfl, hns⟩

theorem served_of_setup {c : Config} {service : Option RecordService} {scripts : List Script}
    {s : Console} (h : setup c service scripts = .ok s) : s.Served := by
  obtain ⟨hs, rfl, -⟩ := eq_of_setup h
  exact served_ofHandlers _ _ _

/-! ## What lines leave as it is -/

theorem map_set_eq {α β : Type} {f : α → β} {l : List α} {i : Nat} {a a' : α}
    (h : l[i]? = some a) (hf : f a' = f a) : (l.set i a').map f = l.map f := by
  refine List.ext_getElem? fun j => ?_
  rw [List.map_set, List.getElem?_set, List.getElem?_map]
  split_ifs with hij hlen
  · rw [← hij, h, hf]
    rfl
  · rw [List.length_map] at hlen
    rw [← hij, List.getElem?_eq_none (by omega)]
    rfl
  · rfl

/-- The state that two consoles share: the catalog, and the handlers short of their filters. -/
structure Agrees (s s' : Console) : Prop where
  catalog : s'.catalog = s.catalog
  handlers : s'.handlers.map Handler.unfiltered = s.handlers.map Handler.unfiltered

theorem Agrees.refl (s : Console) : Agrees s s := ⟨rfl, rfl⟩

theorem Agrees.trans {s s' s'' : Console} (h : Agrees s s') (h' : Agrees s' s'') : Agrees s s'' :=
  ⟨h'.catalog.trans h.catalog, h'.handlers.trans h.handlers⟩

theorem hear_frame {s : Console} {place : Nat} {h : Handler} (a : Answer)
    (hp : s.handlers[place]? = some h) : Agrees s (s.hear place h a).1 :=
  ⟨rfl, map_set_eq hp (Handler.unfiltered_hear h a)⟩

/-- The handler hears the reply of a service that answers. -/
theorem perform_askStore {s : Console} {place : Nat} {h : Handler} {request e : Envelope}
    {service : RecordService} (hc : s.service.call request = (service, some e)) :
    s.perform place h (.askStore request) =
      ((hear { s with service := service } place h (.store e)).1,
        ⟨(hear { s with service := service } place h (.store e)).2, [request]⟩) := by
  simp only [perform, hc]

theorem perform_frame {s : Console} {place : Nat} {h : Handler} (e : Effect)
    (hp : s.handlers[place]? = some h) : Agrees s (s.perform place h e).1 := by
  cases e with
  | emit events => exact Agrees.refl s
  | askRegistry => exact hear_frame _ hp
  | askStore request =>
    cases hc : s.service.call request with
    | mk service reply =>
      cases reply with
      | none =>
        simp only [perform, hc]
        exact ⟨rfl, rfl⟩
      | some e =>
        rw [perform_askStore hc]
        have hf := hear_frame (s := { s with service := service }) (.store e) hp
        exact ⟨hf.catalog, hf.handlers⟩

/-- The console with a handler in the state that running a command has left it in. -/
def withHandler (s : Console) (place : Nat) (h : Handler) : Console :=
  { s with handlers := s.handlers.set place h }

/-- A command of a handler that does not run is lost. -/
theorem execute_none {s : Console} {c : Command}
    (hp : s.handlers[c.registration.handler.place]? = none) : s.execute c = (s, ⟨[], []⟩) := by
  simp only [execute, hp]

theorem execute_ok {s : Console} {c : Command} {h h' : Handler} {effect : Effect}
    (hp : s.handlers[c.registration.handler.place]? = some h)
    (hx : h.execute s.service.runs c = (h', .ok effect)) :
    s.execute c = (s.withHandler c.registration.handler.place h').perform
      c.registration.handler.place h' effect := by
  simp only [execute, hp, hx]
  rfl

theorem execute_error {s : Console} {c : Command} {h h' : Handler} {e : ConsoleError}
    (hp : s.handlers[c.registration.handler.place]? = some h)
    (hx : h.execute s.service.runs c = (h', .error e)) :
    s.execute c = (s.withHandler c.registration.handler.place h', ⟨Handler.report e, []⟩) := by
  simp only [execute, hp, hx]
  rfl

theorem getElem?_withHandler {s : Console} {place : Nat} {h h' : Handler}
    (hp : s.handlers[place]? = some h) : (s.withHandler place h').handlers[place]? = some h' :=
  List.getElem?_set_self (List.getElem?_eq_some_iff.1 hp).1

theorem execute_frame (s : Console) (c : Command) : Agrees s (s.execute c).1 := by
  cases hp : s.handlers[c.registration.handler.place]? with
  | none =>
    rw [execute_none hp]
    exact Agrees.refl s
  | some h =>
    cases hx : h.execute s.service.runs c with
    | mk h' result =>
      have hu : h'.unfiltered = h.unfiltered := by
        have := Handler.unfiltered_execute h s.service.runs c
        rw [hx] at this
        exact this
      have hset : Agrees s (s.withHandler c.registration.handler.place h') :=
        ⟨rfl, map_set_eq hp hu⟩
      cases result with
      | error e =>
        rw [execute_error hp hx]
        exact hset
      | ok effect =>
        rw [execute_ok hp hx]
        exact hset.trans (perform_frame effect (getElem?_withHandler hp))

theorem submit_frame (s : Console) (line : Line) : Agrees s (s.submit line).1 := by
  unfold submit
  split_ifs
  · cases s.catalog.settle line with
    | inform event => exact Agrees.refl s
    | execute c => exact execute_frame s c
  · exact Agrees.refl s

/-- Lines change neither the catalog nor the handlers, short of their filters. -/
theorem submitAll_frame (s : Console) (lines : List Line) : Agrees s (s.submitAll lines).1 := by
  induction lines generalizing s with
  | nil => exact Agrees.refl s
  | cons line lines ih => exact (submit_frame s line).trans (ih _)

theorem Agrees.handler {s s' : Console} (h : Agrees s s') {place : Nat} {a' : Handler}
    (ha : s'.handlers[place]? = some a') :
    ∃ a, s.handlers[place]? = some a ∧ a.unfiltered = a'.unfiltered := by
  have hmap : (s.handlers.map Handler.unfiltered)[place]? = some a'.unfiltered := by
    rw [← h.handlers, List.getElem?_map, ha]
    rfl
  rw [List.getElem?_map] at hmap
  exact Option.map_eq_some_iff.1 hmap

theorem Agrees.symm {s s' : Console} (h : Agrees s s') : Agrees s' s :=
  ⟨h.catalog.symm, h.handlers.symm⟩

theorem Served.of_agrees {s s' : Console} (hs : s.Served) (h : Agrees s s') : s'.Served := by
  intro r hr
  rw [h.catalog] at hr
  obtain ⟨a, rs, ha, hrs, hmem⟩ := hs r hr
  obtain ⟨a', ha', heq⟩ := h.symm.handler ha
  refine ⟨a', rs, ha', ?_, hmem⟩
  rw [← Handler.registrations_unfiltered, heq, Handler.registrations_unfiltered]
  exact hrs

/-- A console that runs no scripts runs none whatever lines it has taken. -/
theorem isScripted_of_agrees {s s' : Console} (h : Agrees s s')
    (hs : ∀ a ∈ s.handlers, a.isScripted = false) : ∀ a ∈ s'.handlers, a.isScripted = false := by
  intro a' ha'
  obtain ⟨place, hplace⟩ := List.mem_iff_getElem?.1 ha'
  obtain ⟨a, ha, heq⟩ := h.handler hplace
  rw [← Handler.isScripted_unfiltered, ← heq, Handler.isScripted_unfiltered]
  exact hs a (List.mem_of_getElem? ha)

/-- A console that was set up without scripts runs none, whatever lines it has taken. -/
theorem isScripted_of_setup {c : Config} {service : Option RecordService} {s : Console}
    (h : setup c service [] = .ok s) (lines : List Line) :
    ∀ a ∈ (s.submitAll lines).1.handlers, a.isScripted = false := by
  obtain ⟨hs, rfl, hns⟩ := eq_of_setup h
  exact isScripted_of_agrees (submitAll_frame _ lines) hns

/-! ## The default configuration -/

/-- The console of the default configuration over a new store. -/
def standard : Console :=
  ofHandlers true [.help, .exit, .config {}, .cluster [], .database none] (.memory Store.empty)

theorem setup_standard : setup {} (some (.memory Store.empty)) [] = .ok standard := rfl

end Console

end ClusterConsole
