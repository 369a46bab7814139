/-
# The channel behind a transport

A transport names an endpoint by its URL: a host, a port, a path and a query.  The
channel it talks through comes from `CommunicationChannel::Instance`, which keeps
the channels in use in a map under the host address and the path; the port and the
query decide what a new channel is connected to, but not which channel is found.
A channel leaves the map when the last transport that uses it is gone.
-/

import FireboltTransport.Common
import FireboltTransport.Semantics.Run
import FireboltTransport.Semantics.StdMap

namespace FireboltTransport.Endpoints

open Semantics

universe u

/-- `WPEFramework::Core::URL`, as far as a transport reads it. -/
structure URL where
  host : Text
  port : UInt16
  path : Text
  query : Text
  deriving DecidableEq

/-- What `NodeId::HostAddress` returns, a textual address without the port. -/
@[ext]
structure HostAddress where
  text : Text
  noAt : '@' ∉ text
  deriving DecidableEq

/-- `WPEFramework::Core::NodeId`. -/
@[ext]
structure NodeId where
  hostAddress : HostAddress
  portNumber : UInt16
  deriving DecidableEq

/-- The arguments a channel is created with. -/
@[ext]
structure Endpoint where
  remoteNode : NodeId
  path : Text
  query : Text
  mask : Bool
  deriving DecidableEq

/-- A transport: what its own URL names, and the channel it uses. -/
structure Transport where
  own : Endpoint
  /-- The key the channel is kept under. -/
  searchLine : Text
  /-- What the channel was created with. -/
  channel : Endpoint
  deriving DecidableEq

/-- The transports that exist, and the channels in `channelMap`, told by what they were created
with. -/
structure State (τ : Type u) where
  channelMap : StdMap Text Endpoint
  transports : StdMap τ Transport

inductive Action (τ : Type u)
  /-- The constructor; the host of the URL resolves to `address`. -/
  | construct (transport : τ) (address : HostAddress) (url : URL)
  | destroy (transport : τ)
  deriving DecidableEq

/-- The key of `CommunicationChannel::Instance`. -/
def searchLine (remoteNode : NodeId) (path : Text) : Text :=
  remoteNode.hostAddress.text ++ '@' :: path

/-- The path a transport asks for: its URL's, with a `/` in front if it has none. -/
def URL.channelPath (url : URL) : Text :=
  if url.path.head? = some '/' then url.path else '/' :: url.path

/-- What the URL of a transport names. -/
def URL.endpoint (url : URL) (address : HostAddress) : Endpoint where
  remoteNode := ⟨address, url.port⟩
  path := url.channelPath
  query := url.query
  mask := true

/-- `CommunicationChannel::Instance`: the channel, and the map with it. -/
def channelInstance (channelMap : StdMap Text Endpoint) (endpoint : Endpoint) :
    Endpoint × StdMap Text Endpoint :=
  let key := searchLine endpoint.remoteNode endpoint.path
  match channelMap.lookup key with
  | some channel => (channel, channelMap)
  | none => (endpoint, channelMap.insert key endpoint)

/-- Some transport uses the channel under the key. -/
def inUse {τ : Type u} (transports : StdMap τ Transport) (key : Text) : Bool :=
  transports.entries.any fun entry => entry.2.searchLine = key

variable {τ : Type u} [DecidableEq τ]

/-- One step, or `none` when the label is not enabled. -/
def step (state : State τ) : Action τ → Option (State τ)
  | .construct transport address url =>
      match state.transports.lookup transport with
      | some _ => none
      | none =>
          let own := url.endpoint address
          let (channel, channelMap) := channelInstance state.channelMap own
          some {
            channelMap := channelMap
            transports := state.transports.insert transport
              ⟨own, searchLine own.remoteNode own.path, channel⟩ }
  | .destroy transport =>
      match state.transports.lookup transport with
      | none => none
      | some gone =>
          let transports := state.transports.erase transport
          some {
            -- The last reference takes the channel out of the map.
            channelMap :=
              if inUse transports gone.searchLine then state.channelMap
              else state.channelMap.erase gone.searchLine
            transports := transports }

/-- No transport was constructed. -/
def initial : State τ := ⟨∅, ∅⟩

/-! ## What is wanted -/

/-- The channel of every transport was created for what the transport's URL names. -/
def TalksToOwn (state : State τ) : Prop :=
  ∀ transport live, state.transports.lookup transport = some live → live.channel = live.own

/-- No transport that exists has the host address and the path of the one to be constructed, but
another port or query. -/
def ConstructsApart (state : State τ) : Action τ → Prop
  | .construct _ address url => ∀ entry ∈ state.transports.entries,
      entry.2.own.remoteNode.hostAddress = address → entry.2.own.path = url.channelPath →
        entry.2.own.remoteNode.portNumber = url.port ∧ entry.2.own.query = url.query
  | .destroy _ => True

instance (state : State τ) (action : Action τ) : Decidable (ConstructsApart state action) := by
  cases action with
  | construct transport address url =>
      unfold ConstructsApart
      infer_instance
  | destroy transport => exact isTrue trivial

/-- The key tells the host address from the path. -/
theorem searchLine_inj {first second : NodeId} {path other : Text} :
    searchLine first path = searchLine second other ↔
      first.hostAddress = second.hostAddress ∧ path = other := by
  constructor
  · intro hkey
    obtain ⟨haddress, hpath⟩ := append_cons_inj first.hostAddress.noAt second.hostAddress.noAt hkey
    exact ⟨HostAddress.ext haddress, hpath⟩
  · intro hboth
    rw [searchLine, hboth.1, hboth.2]
    rfl

/-! ## The steps -/

section Instance

variable {channelMap : StdMap Text Endpoint} {endpoint : Endpoint}

/-- The channel a transport gets is in the map under the transport's key. -/
theorem lookup_channelInstance (channelMap : StdMap Text Endpoint) (endpoint : Endpoint) :
    (channelInstance channelMap endpoint).2.lookup
        (searchLine endpoint.remoteNode endpoint.path) =
      some (channelInstance channelMap endpoint).1 := by
  simp only [channelInstance]
  split
  · assumption
  · exact AList.lookup_insert _

/-- Every channel that was in the map stays. -/
theorem lookup_channelInstance_of_some {key : Text} {channel : Endpoint}
    (hchannel : channelMap.lookup key = some channel) :
    (channelInstance channelMap endpoint).2.lookup key = some channel := by
  simp only [channelInstance]
  split
  · exact hchannel
  · rename_i hnone
    rw [StdMap.lookup_insert_of_eq_or_ne, if_neg]
    · exact hchannel
    · rintro rfl
      rw [hnone] at hchannel
      cases hchannel

/-- A channel that comes into the map is the new transport's. -/
theorem lookup_channelInstance_cases {key : Text} {channel : Endpoint}
    (hchannel : (channelInstance channelMap endpoint).2.lookup key = some channel) :
    channelMap.lookup key = some channel ∨
      key = searchLine endpoint.remoteNode endpoint.path ∧
        channel = (channelInstance channelMap endpoint).1 := by
  by_cases hkey : key = searchLine endpoint.remoteNode endpoint.path
  · right
    rw [hkey, lookup_channelInstance] at hchannel
    exact ⟨hkey, (Option.some.inj hchannel).symm⟩
  · left
    simp only [channelInstance] at hchannel
    split at hchannel
    · exact hchannel
    · rwa [StdMap.lookup_insert_of_eq_or_ne, if_neg hkey] at hchannel

end Instance

/-- The steps, as a relation. -/
inductive Step (state : State τ) : Action τ → State τ → Prop
  | construct (transport : τ) (address : HostAddress) (url : URL)
      (hnew : state.transports.lookup transport = none) :
      Step state (.construct transport address url)
        { channelMap := (channelInstance state.channelMap (url.endpoint address)).2
          transports := state.transports.insert transport
            ⟨url.endpoint address, searchLine ⟨address, url.port⟩ url.channelPath,
              (channelInstance state.channelMap (url.endpoint address)).1⟩ }
  | destroy (transport : τ) (gone : Transport)
      (hgone : state.transports.lookup transport = some gone) :
      Step state (.destroy transport)
        { channelMap :=
            if inUse (state.transports.erase transport) gone.searchLine then state.channelMap
            else state.channelMap.erase gone.searchLine
          transports := state.transports.erase transport }

theorem step_cases {state next : State τ} {action : Action τ}
    (htaken : step state action = some next) : Step state action next := by
  cases action with
  | construct transport address url =>
      simp only [step] at htaken
      split at htaken
      · cases htaken
      · obtain rfl := Option.some.inj htaken
        exact .construct transport address url ‹_›
  | destroy transport =>
      simp only [step] at htaken
      split at htaken
      · cases htaken
      · obtain rfl := Option.some.inj htaken
        exact .destroy transport _ ‹_›

/-! ## The channels that are kept -/

theorem inUse_iff {transports : StdMap τ Transport} {key : Text} :
    inUse transports key = true ↔
      ∃ transport live, transports.lookup transport = some live ∧ live.searchLine = key := by
  simp only [inUse, List.any_eq_true, decide_eq_true_eq]
  constructor
  · intro hused
    obtain ⟨⟨transport, live⟩, hentry, hkey⟩ := hused
    exact ⟨transport, live, StdMap.mem_entries_iff_lookup.mp hentry, hkey⟩
  · intro hused
    obtain ⟨transport, live, hlive, hkey⟩ := hused
    exact ⟨⟨transport, live⟩, StdMap.mem_entries_iff_lookup.mpr hlive, hkey⟩

/-- The map holds the channels of the transports that exist, under their keys, and no other. -/
structure Kept (state : State τ) : Prop where
  key : ∀ transport live, state.transports.lookup transport = some live →
    live.searchLine = searchLine live.own.remoteNode live.own.path
  masked : ∀ transport live, state.transports.lookup transport = some live → live.own.mask = true
  cached : ∀ transport live, state.transports.lookup transport = some live →
    state.channelMap.lookup live.searchLine = some live.channel
  used : ∀ key channel, state.channelMap.lookup key = some channel →
    ∃ transport live, state.transports.lookup transport = some live ∧ live.searchLine = key ∧
      live.channel = channel

theorem kept_initial : Kept (initial : State τ) := by
  constructor <;> simp [initial]

theorem Kept.step {state next : State τ} {action : Action τ} (hkept : Kept state)
    (htaken : step state action = some next) : Kept next := by
  cases step_cases htaken with
  | construct transport address url hnew =>
      constructor
      · exact StdMap.forall_lookup_insert rfl hkept.key
      · exact StdMap.forall_lookup_insert rfl hkept.masked
      · apply StdMap.forall_lookup_insert
        · exact lookup_channelInstance state.channelMap (url.endpoint address)
        · intro other live hlive
          exact lookup_channelInstance_of_some (hkept.cached other live hlive)
      · intro key channel hchannel
        rcases lookup_channelInstance_cases hchannel with hbefore | ⟨rfl, rfl⟩
        · obtain ⟨other, live, hlive, hkey⟩ := hkept.used key channel hbefore
          refine ⟨other, live, ?_, hkey⟩
          rw [StdMap.lookup_insert_of_eq_or_ne, if_neg]
          · exact hlive
          · rintro rfl
            rw [hnew] at hlive
            cases hlive
        · exact ⟨transport, _, AList.lookup_insert _, rfl, rfl⟩
  | destroy transport gone hgone =>
      have hremaining : ∀ other live, (state.transports.erase transport).lookup other = some live →
          state.transports.lookup other = some live :=
        StdMap.forall_lookup_erase transport fun _ _ hlive => hlive
      constructor
      · exact StdMap.forall_lookup_erase transport hkept.key
      · exact StdMap.forall_lookup_erase transport hkept.masked
      · intro other live hlive
        have hcached := hkept.cached other live (hremaining other live hlive)
        show (if _ then _ else _ : StdMap Text Endpoint).lookup _ = _
        split_ifs with hused
        · exact hcached
        · rw [StdMap.lookup_erase_of_eq_or_ne, if_neg]
          · exact hcached
          · intro hsame
            exact hused (inUse_iff.mpr ⟨other, live, hlive, hsame⟩)
      · intro key channel hchannel
        have hbefore : state.channelMap.lookup key = some channel := by
          revert hchannel
          show (if _ then _ else _ : StdMap Text Endpoint).lookup _ = _ → _
          split_ifs
          · exact id
          · rw [StdMap.lookup_erase_of_eq_or_ne]
            split_ifs
            · exact nofun
            · exact id
        by_cases hkey : key = gone.searchLine
        · have hused : inUse (state.transports.erase transport) gone.searchLine = true := by
            by_contra hnot
            revert hchannel
            show (if _ then _ else _ : StdMap Text Endpoint).lookup _ = _ → False
            rw [if_neg hnot, StdMap.lookup_erase_of_eq_or_ne, if_pos hkey]
            exact nofun
          obtain ⟨other, live, hlive, hsame⟩ := inUse_iff.mp hused
          have hcached := hkept.cached other live (hremaining other live hlive)
          rw [hsame, ← hkey, hbefore] at hcached
          exact ⟨other, live, hlive, hsame.trans hkey.symm, (Option.some.inj hcached).symm⟩
        · obtain ⟨other, live, hlive, hsame, hcached⟩ := hkept.used key channel hbefore
          refine ⟨other, live, ?_, hsame, hcached⟩
          rw [StdMap.lookup_erase_of_eq_or_ne, if_neg]
          · exact hlive
          · rintro rfl
            rw [hgone] at hlive
            obtain rfl := Option.some.inj hlive
            exact hkey hsame.symm

/-! ## Whom a transport talks to -/

/-- The condition, over what the transports that exist were constructed from. -/
theorem constructsApart_iff {state : State τ} {transport : τ} {address : HostAddress} {url : URL} :
    ConstructsApart state (.construct transport address url) ↔
      ∀ other live, state.transports.lookup other = some live →
        searchLine live.own.remoteNode live.own.path =
            searchLine ⟨address, url.port⟩ url.channelPath →
          live.own.remoteNode.portNumber = url.port ∧ live.own.query = url.query := by
  constructor
  · intro hapart other live hlive hkey
    obtain ⟨haddress, hpath⟩ := searchLine_inj.mp hkey
    exact hapart ⟨other, live⟩ (StdMap.mem_entries_iff_lookup.mpr hlive) haddress hpath
  · intro hapart entry hentry haddress hpath
    exact hapart entry.1 entry.2 (StdMap.mem_entries_iff_lookup.mp hentry)
      (searchLine_inj.mpr ⟨haddress, hpath⟩)

/-- The channel a new transport gets, when it was in the map already. -/
theorem channelInstance_of_some {channelMap : StdMap Text Endpoint} {endpoint channel : Endpoint}
    (hchannel : channelMap.lookup (searchLine endpoint.remoteNode endpoint.path) = some channel) :
    (channelInstance channelMap endpoint).1 = channel := by
  simp [channelInstance, hchannel]

theorem channelInstance_of_none {channelMap : StdMap Text Endpoint} {endpoint : Endpoint}
    (hnone : channelMap.lookup (searchLine endpoint.remoteNode endpoint.path) = none) :
    (channelInstance channelMap endpoint).1 = endpoint := by
  simp [channelInstance, hnone]

theorem Kept.endpoint_eq {state : State τ} (hkept : Kept state) {other : τ} {live : Transport}
    (hlive : state.transports.lookup other = some live) {address : HostAddress} {url : URL}
    (hkey : live.searchLine = searchLine ⟨address, url.port⟩ url.channelPath)
    (hport : live.own.remoteNode.portNumber = url.port) (hquery : live.own.query = url.query) :
    live.own = url.endpoint address := by
  rw [hkept.key other live hlive] at hkey
  obtain ⟨haddress, hpath⟩ := searchLine_inj.mp hkey
  have hnode : live.own.remoteNode = ⟨address, url.port⟩ := NodeId.ext haddress hport
  exact Endpoint.ext hnode hpath hquery (hkept.masked other live hlive)

section Step

variable {state next : State τ} {action : Action τ}

/-- What holds up to the first transport that is not constructed apart. -/
structure KeptApart (state : State τ) : Prop extends Kept state where
  own : TalksToOwn state

/-- A transport constructed apart from the others talks to its own endpoint. -/
theorem talksToOwn_step (hkept : Kept state) (htalks : TalksToOwn state)
    (hapart : ConstructsApart state action) (htaken : step state action = some next) :
    TalksToOwn next := by
  cases step_cases htaken with
  | construct transport address url hnew =>
      apply StdMap.forall_lookup_insert
      · show (channelInstance state.channelMap (url.endpoint address)).1 = url.endpoint address
        cases hcached : state.channelMap.lookup
            (searchLine (url.endpoint address).remoteNode (url.endpoint address).path) with
        | none => exact channelInstance_of_none hcached
        | some channel =>
            obtain ⟨user, found, hfound, hkey, rfl⟩ := hkept.used _ _ hcached
            obtain ⟨hport, hquery⟩ := constructsApart_iff.mp hapart user found hfound
              ((hkept.key user found hfound).symm.trans hkey)
            rw [channelInstance_of_some hcached, htalks user found hfound]
            exact hkept.endpoint_eq hfound hkey hport hquery
      · exact htalks
  | destroy transport gone hgone => exact StdMap.forall_lookup_erase transport htalks

/-- One that is not gets a channel to another endpoint. -/
theorem constructsApart_of_talksToOwn (hkept : Kept state) (htalks : TalksToOwn state)
    (htaken : step state action = some next) (hnext : TalksToOwn next) :
    ConstructsApart state action := by
  cases step_cases htaken with
  | construct transport address url hnew =>
      rw [constructsApart_iff]
      intro other live hlive hkey
      have hcached := hkept.cached other live hlive
      rw [hkept.key other live hlive, hkey] at hcached
      have hown := hnext transport _ (AList.lookup_insert _)
      rw [channelInstance_of_some hcached, htalks other live hlive] at hown
      rw [hown]
      exact ⟨rfl, rfl⟩
  | destroy transport gone hgone => trivial

end Step

/-- **Whom transports talk to.**  In every run of constructions and destructions, every transport
that exists talks throughout through a channel that was created for the endpoint its URL names
if and only if each is constructed while no other has its host address and path with another
port or query. -/
theorem talksToOwn_throughout_iff {schedule : List (Action τ)} {final : State τ}
    (hrun : exec step initial schedule = some final) :
    Throughout step initial schedule TalksToOwn ↔
      Meets step ConstructsApart initial schedule := by
  have hstart : KeptApart (initial : State τ) := ⟨kept_initial, by simp [TalksToOwn, initial]⟩
  apply throughout_iff_meets hstart (fun _ hstate => hstate.own) _ _ hrun
  · intro state action next hstate hapart htaken
    exact ⟨hstate.toKept.step htaken, talksToOwn_step hstate.toKept hstate.own hapart htaken⟩
  · intro state action next hstate htaken hnext
    exact constructsApart_of_talksToOwn hstate.toKept hstate.own htaken hnext

/-- The address of the local host. -/
def localhost : HostAddress := ⟨"127.0.0.1".toList, by decide⟩

/-- The local host with a port and a path. -/
def localUrl (port : UInt16) (path : Text) : URL := ⟨"localhost".toList, port, path, []⟩

/-- Two transports share a channel, and a third uses the same port under another path. -/
theorem talksToOwn_throughout_shared :
    Throughout step initial
      [.construct (0 : Fin 3) localhost (localUrl 9998 []),
        .construct 1 localhost (localUrl 9998 ['/']),
        .construct 2 localhost (localUrl 9998 ['a']), .destroy 0]
      (TalksToOwn (τ := Fin 3)) := by
  obtain ⟨final, hrun, _⟩ : ∃ final : State (Fin 3), exec step initial
      [.construct (0 : Fin 3) localhost (localUrl 9998 []),
        .construct 1 localhost (localUrl 9998 ['/']),
        .construct 2 localhost (localUrl 9998 ['a']), .destroy 0] = some final ∧ true = true :=
    exists_exec_of_any (by decide)
  exact (talksToOwn_throughout_iff hrun).mpr (by decide)

/-- The second of two transports to different ports of one host talks to the port of the first. -/
theorem not_talksToOwn_second_port :
    ¬ Throughout step initial
      [.construct (0 : Fin 2) localhost (localUrl 9998 []),
        .construct 1 localhost (localUrl 3474 [])] (TalksToOwn (τ := Fin 2)) := by
  intro hall
  obtain ⟨final, hrun, hfinal⟩ : ∃ final : State (Fin 2), exec step initial
      [.construct (0 : Fin 2) localhost (localUrl 9998 []),
        .construct 1 localhost (localUrl 3474 [])] = some final ∧
        ((final.transports.lookup 1).any fun live =>
          decide (live.channel.remoteNode.portNumber = 9998 ∧
            live.own.remoteNode.portNumber = 3474)) = true :=
    exists_exec_of_any (by decide)
  rw [Option.any_eq_true] at hfinal
  obtain ⟨live, hlive, hports⟩ := hfinal
  have hports := of_decide_eq_true hports
  rw [hall.last hrun 1 live hlive, hports.2] at hports
  exact absurd hports.1 (by decide)

end FireboltTransport.Endpoints
