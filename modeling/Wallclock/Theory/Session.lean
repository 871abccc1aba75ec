import Wallclock.Core.Resources

/-!
# What a Session Takes and Gives Back

One lemma for each function of the server loop that opens or closes
descriptors or counts references.

Most of them are balanced. A crypto object gives back its three descriptors
(`btCryptoUnref_btCryptoNew`), so a transport that cannot be set up leaves the
table as it found it (`btAttNew_none`), and so does a failing `server_create`
(`serverCreate_failed`). Advertising and listening close what they open
(`restartAdvert_eq`, `l2capLeAttListenAndAccept_eq`).

`gatt_service` is not. A failing `server_create` leaves the epoll descriptor
of `mainloop_init` open, since only `mainloop_run` closes it
(`gattService_failed`). A session gives up two of the three references of its
transport, one of `bt_gatt_server_new` and one of the disconnect, but not the
one of `bt_att_new`; the transport is never freed, nor are its crypto
descriptors closed (`gattService_session`). In both cases the descriptor of
the connection has been closed on return.

## Main definitions

* `AttOutcome.succeeds`: The outcomes that set up a transport.
* `GattOutcome.returns`: The outcomes in which `gatt_service` returns.
* `AcceptOutcome.succeeds`: The outcomes that accept a connection.
* `afterEpoll`: The table after `mainloop_init`.

## Theorems

* `btCryptoUnref_btCryptoNew`: A crypto object gives back its descriptors.
* `btCryptoNew_grows`: A crypto object only opens descriptors.
* `btAttNew_none`, `btAttNew_some`: What setting up a transport does.
* `serverCreate_failed`, `serverCreate_succeeds`: What `server_create` does.
* `disconnectCb_session`, `serverDestroy_session`: The references a session
  gives up.
* `gattService_failed`, `gattService_gone`, `gattService_session`,
  `gattService_returns`, `gattService_statics`: What `gatt_service` does.
* `restartAdvert_eq`: Advertising leaves the table alone.
* `l2capLeAttListenAndAccept_eq`: Listening opens the connection's descriptor.
-/

namespace Wallclock

open Descriptor

/-- The outcomes of `bt_att_new` that set up a transport, given that there is
    an epoll descriptor. -/
def AttOutcome.succeeds (o : AttOutcome) (fd : ℕ) : Bool :=
  decide (fd ≤ 127) && o.addFd && o.readHandler && o.disconnectHandler && o.mtu && o.buf

/-- The outcomes in which `gatt_service` returns: the server could not be
    created, or the client has disconnected. -/
def GattOutcome.returns (o : GattOutcome) (fd : ℕ) : Bool :=
  !(o.epollCreate && o.create.att.succeeds fd) || (o.create.populateDb && o.disconnects)

/-- The outcomes of `l2cap_le_att_listen_and_accept` with a connection. -/
def AcceptOutcome.succeeds (o : AcceptOutcome) : Bool :=
  o.socket && o.bind && o.setSecurity && o.listen && o.select && o.accept

variable {K : Allocator} {t : Table} {fd : ℕ}

/-- Releasing a crypto object closes what setting it up has opened, also where
    setting it up has failed. -/
theorem btCryptoUnref_btCryptoNew (K : Allocator) (o : CryptoOutcome) (t : Table) :
    btCryptoUnref (btCryptoNew K o t).1 (btCryptoNew K o t).2 = t := by
  -- One case for each step of the set-up that can fail, in the order of the steps.
  unfold btCryptoNew
  by_cases hecb : o.ecbSocket = true
  · simp only [hecb, Bool.not_true, Bool.false_eq_true, if_false]
    by_cases hbind : o.ecbBind = true
    · simp only [hbind, Bool.not_true, Bool.false_eq_true, if_false]
      by_cases hrandom : o.urandom = true
      · simp only [hrandom, Bool.not_true, Bool.false_eq_true, if_false]
        by_cases hcmac : o.cmacSocket = true
        · simp only [hcmac, Bool.not_true, Bool.false_eq_true, if_false]
          by_cases hcbind : o.cmacBind = true
          · simp only [hcbind, Bool.not_true, Bool.false_eq_true, if_false, btCryptoUnref]
            exact Table.close_three rfl rfl rfl
          · simp only [hcbind, Bool.not_false, if_true, btCryptoUnref, Table.close_openNew]
        · simp only [hcmac, Bool.not_false, if_true, btCryptoUnref, Table.close_openNew]
      · simp only [hrandom, Bool.not_false, if_true, btCryptoUnref, Table.close_openNew]
    · simp only [hbind, Bool.not_false, if_true, btCryptoUnref, Table.close_openNew]
  · simp only [hecb, Bool.not_false, if_true, btCryptoUnref]

theorem btCryptoNew_grows (K : Allocator) (o : CryptoOutcome) (t : Table) :
    Table.Grows t (btCryptoNew K o t).2 := by
  unfold btCryptoNew
  by_cases hecb : o.ecbSocket = true
  · simp only [hecb, Bool.not_true, Bool.false_eq_true, if_false]
    by_cases hbind : o.ecbBind = true
    · simp only [hbind, Bool.not_true, Bool.false_eq_true, if_false]
      by_cases hrandom : o.urandom = true
      · simp only [hrandom, Bool.not_true, Bool.false_eq_true, if_false]
        by_cases hcmac : o.cmacSocket = true
        · simp only [hcmac, Bool.not_true, Bool.false_eq_true, if_false]
          by_cases hcbind : o.cmacBind = true
          · simp only [hcbind, Bool.not_true, Bool.false_eq_true, if_false]
            exact ((Table.grows_openNew K t).trans (Table.grows_openNew K _)).trans
              (Table.grows_openNew K _)
          · simp only [hcbind, Bool.not_false, if_true, Table.close_openNew]
            exact Table.Grows.refl t
        · simp only [hcmac, Bool.not_false, if_true, Table.close_openNew]
          exact Table.Grows.refl t
      · simp only [hrandom, Bool.not_false, if_true, Table.close_openNew]
        exact Table.Grows.refl t
    · simp only [hbind, Bool.not_false, if_true, Table.close_openNew]
      exact Table.Grows.refl t
  · simp only [hecb, Bool.not_false, if_true]
    exact Table.Grows.refl t

/-- A transport that cannot be set up leaves the table as it was. -/
theorem btAttNew_none {o : AttOutcome} {epollFd : Option ℕ}
    (h : epollFd = none ∨ o.succeeds fd = false) :
    btAttNew K o fd epollFd t = (none, t) := by
  unfold btAttNew ioNew
  by_cases hfd : fd > 127
  · simp only [hfd, if_true]
    rfl
  · by_cases hepoll : epollFd = none
    · simp only [hfd, hepoll, if_false, if_true]
      rfl
    · by_cases hadd : o.addFd = true
      · have hfail := h.resolve_left hepoll
        have hle : fd ≤ 127 := by omega
        simp only [AttOutcome.succeeds, hle, hadd, decide_true, Bool.true_and] at hfail
        simp only [hfd, hepoll, hadd, Bool.not_true, Bool.false_eq_true, if_false]
        -- The failure path closes what the crypto object holds.
        have hfree : ∀ io : Io, io.closeOnDestroy = false →
            (btAttFree ⟨0, some io, (btCryptoNew K o.crypto t).1⟩ (btCryptoNew K o.crypto t).2).2
              = t := by
          intro io hio
          rcases io with ⟨n, close⟩
          obtain rfl : close = false := hio
          exact btCryptoUnref_btCryptoNew K o.crypto t
        rw [hfree _ rfl]
        cases hread : o.readHandler with
        | false => simp only [Bool.not_false, if_true]
        | true =>
            cases hdisc : o.disconnectHandler with
            | false => simp only [Bool.not_true, Bool.not_false, Bool.false_eq_true, if_false,
                if_true]
            | true =>
                cases hmtu : o.mtu with
                | false => simp only [Bool.not_true, Bool.not_false, Bool.false_eq_true, if_false,
                    if_true]
                | true =>
                    have hbuf : o.buf = false := by
                      simpa only [hread, hdisc, hmtu, Bool.true_and] using hfail
                    simp only [hbuf, Bool.not_true, Bool.not_false, Bool.false_eq_true, if_false,
                      if_true]
      · simp only [hfd, hepoll, hadd, Bool.not_false, if_false, if_true]
        rfl

/-- A transport that is set up has one reference, and its entry in the main
    loop does not close the descriptor yet. -/
theorem btAttNew_some {o : AttOutcome} {epollFd : Option ℕ} (hepoll : epollFd ≠ none)
    (h : o.succeeds fd = true) :
    btAttNew K o fd epollFd t
      = (some ⟨1, some ⟨fd, false⟩, (btCryptoNew K o.crypto t).1⟩,
        (btCryptoNew K o.crypto t).2) := by
  simp only [AttOutcome.succeeds, Bool.and_eq_true, decide_eq_true_eq] at h
  rcases h with ⟨⟨⟨⟨⟨hfd, hadd⟩, hread⟩, hdisc⟩, hmtu⟩, hbuf⟩
  have hfd' : ¬fd > 127 := by omega
  simp only [btAttNew, ioNew, hfd', hepoll, hadd, hread, hdisc, hmtu, hbuf, Bool.not_true,
    Bool.false_eq_true, if_false, btAttRef]

/-- A server that cannot be created leaves the table as it was. -/
theorem serverCreate_failed {o : CreateOutcome} {epollFd : Option ℕ}
    (h : epollFd = none ∨ o.att.succeeds fd = false) :
    serverCreate K o fd epollFd t = (.failed, t) := by
  rw [serverCreate, btAttNew_none h]

/-- Otherwise it depends on the database. A server that is created holds two
    references of its transport and two of its database. -/
theorem serverCreate_succeeds {o : CreateOutcome} {epollFd : Option ℕ} (hepoll : epollFd ≠ none)
    (h : o.att.succeeds fd = true) :
    serverCreate K o fd epollFd t
      = (if o.populateDb then
          .created ⟨⟨2, some ⟨fd, true⟩, (btCryptoNew K o.att.crypto t).1⟩, 2, 1⟩
        else .undefined, (btCryptoNew K o.att.crypto t).2) := by
  rw [serverCreate, btAttNew_some hepoll h]
  cases o.populateDb <;> rfl

/-- The disconnect closes the connection's descriptor and gives back the
    reference it takes. -/
theorem disconnectCb_session (fd : ℕ) (crypto : Option Crypto) (t : Table) :
    disconnectCb ⟨⟨2, some ⟨fd, true⟩, crypto⟩, 2, 1⟩ t
      = (⟨⟨2, none, crypto⟩, 2, 1⟩, t.close (some fd)) := rfl

/-- Destroying the server gives up every reference but one of the transport,
    which is therefore not freed. -/
theorem serverDestroy_session (crypto : Option Crypto) (t : Table) :
    serverDestroy ⟨⟨2, none, crypto⟩, 2, 1⟩ t = (⟨⟨1, none, crypto⟩, 0, 0⟩, t) := rfl

/-- The table after `mainloop_init`. -/
def afterEpoll (K : Allocator) (o : GattOutcome) (t : Table) : Table :=
  if o.epollCreate then (t.openNew K).2 else t

/-- A failing `gatt_service` closes the connection and leaves the epoll
    descriptor, if there is one. -/
theorem gattService_failed {o : GattOutcome} {p : Proc}
    (h : (o.epollCreate && o.create.att.succeeds fd) = false) :
    (gattService K o fd p).table = (afterEpoll K o p.table).close (some fd) ∧
      (gattService K o fd p).refs = p.refs ++ [⟨0, 0, 0⟩] ∧
      (gattService K o fd p).phase = p.phase := by
  unfold gattService afterEpoll
  cases hepoll : o.epollCreate with
  | false =>
      simp only [Bool.false_eq_true, if_false]
      rw [serverCreate_failed (Or.inl rfl)]
      exact ⟨rfl, rfl, rfl⟩
  | true =>
      rw [hepoll, Bool.true_and] at h
      simp only [if_true]
      rw [serverCreate_failed (Or.inr h)]
      exact ⟨rfl, rfl, rfl⟩

/-- Where `gatt_service` does not return, nothing has been closed. -/
theorem gattService_gone {o : GattOutcome} {p : Proc} (h : o.returns fd = false) :
    (gattService K o fd p).phase = .gone ∧
      Table.Grows p.table (gattService K o fd p).table := by
  simp only [GattOutcome.returns, Bool.or_eq_false_iff, Bool.not_eq_false', Bool.and_eq_true] at h
  rcases h with ⟨⟨hepoll, hatt⟩, hdies⟩
  have hgrows := (Table.grows_openNew K p.table).trans
    (btCryptoNew_grows K o.create.att.crypto (p.table.openNew K).2)
  unfold gattService
  simp only [hepoll, if_true]
  rw [serverCreate_succeeds (Option.some_ne_none _) hatt]
  cases hdb : o.create.populateDb with
  | false =>
      simp only [Bool.false_eq_true, if_false]
      exact ⟨trivial, hgrows⟩
  | true =>
      rw [hdb, Bool.true_and] at hdies
      simp only [if_true, hdies, Bool.not_false]
      exact ⟨trivial, hgrows⟩

/-- A session closes the connection and the epoll descriptor, keeps its crypto
    descriptors and leaves a reference of its transport. -/
theorem gattService_session {o : GattOutcome} {p : Proc}
    (hcreate : (o.epollCreate && o.create.att.succeeds fd) = true) (h : o.returns fd = true) :
    (gattService K o fd p).table
        = ((btCryptoNew K o.create.att.crypto (p.table.openNew K).2).2.close (some fd)).close
          (some (p.table.openNew K).1) ∧
      (gattService K o fd p).refs = p.refs ++ [⟨1, 0, 0⟩] ∧
      (gattService K o fd p).phase = p.phase := by
  simp only [GattOutcome.returns, hcreate, Bool.not_true, Bool.false_or, Bool.and_eq_true] at h
  rw [Bool.and_eq_true] at hcreate
  unfold gattService
  simp only [hcreate.1, if_true]
  rw [serverCreate_succeeds (Option.some_ne_none _) hcreate.2]
  simp only [h.1, h.2, if_true, Bool.not_true, Bool.false_eq_true, if_false,
    disconnectCb_session, serverDestroy_session, and_self]

/-- What holds whenever `gatt_service` returns: the connection's descriptor
    has been closed, and no other that was open before. Without an epoll
    descriptor that is all, with one something is left. -/
theorem gattService_returns {o : GattOutcome} {p : Proc} (hfd : fd ∈ p.table.held)
    (h : o.returns fd = true) :
    (gattService K o fd p).phase = p.phase ∧
      (gattService K o fd p).table.strays = p.table.strays ∧
      (gattService K o fd p).table.inherited = p.table.inherited ∧
      fd ∉ (gattService K o fd p).table.held ∧
      p.table.held.erase fd ⊆ (gattService K o fd p).table.held ∧
      (o.epollCreate = false → (gattService K o fd p).table.held = p.table.held.erase fd ∧
        (gattService K o fd p).refs = p.refs ++ [⟨0, 0, 0⟩]) ∧
      (o.epollCreate = true → ∃ r, (gattService K o fd p).refs = p.refs ++ [r] ∧
        (r.att ≠ 0 ∨ ∃ e ∈ (gattService K o fd p).table.held, e ∉ p.table.held)) := by
  have hfresh := Table.fresh_openNew K p.table
  have hne : (p.table.openNew K).1 ≠ fd := by
    intro heq
    exact hfresh (heq ▸ hfd)
  by_cases hcreate : (o.epollCreate && o.create.att.succeeds fd) = true
  · -- The disconnect closes the connection, and the transport stays referenced.
    rcases gattService_session hcreate h with ⟨htable, hrefs, hphase⟩
    have hgrows := (Table.grows_openNew K p.table).trans
      (btCryptoNew_grows K o.create.att.crypto (p.table.openNew K).2)
    have hepoll := (btCryptoNew_grows K o.create.att.crypto (p.table.openNew K).2).held
      (Finset.mem_insert_self _ _)
    have hclosed := Table.close_of_mem (hgrows.held hfd)
    rw [hclosed, Table.close_of_mem (Finset.mem_erase.mpr ⟨hne, hepoll⟩)] at htable
    rw [htable]
    refine ⟨hphase, hgrows.strays, hgrows.inherited, ?_, ?_, ?_, ?_⟩
    · intro hmem
      exact (Finset.mem_erase.mp (Finset.mem_of_mem_erase hmem)).1 rfl
    · intro n hn
      rcases Finset.mem_erase.mp hn with ⟨hnfd, hnheld⟩
      refine Finset.mem_erase.mpr ⟨?_, Finset.mem_erase.mpr ⟨hnfd, hgrows.held hnheld⟩⟩
      rintro rfl
      exact hfresh hnheld
    · intro hnone
      rw [hnone, Bool.false_and] at hcreate
      exact absurd hcreate Bool.false_ne_true
    · exact fun _ => ⟨⟨1, 0, 0⟩, hrefs, Or.inl Nat.one_ne_zero⟩
  · rw [Bool.not_eq_true] at hcreate
    rcases gattService_failed (K := K) (p := p) hcreate with ⟨htable, hrefs, hphase⟩
    unfold afterEpoll at htable
    cases hepoll : o.epollCreate with
    | false =>
        simp only [hepoll, Bool.false_eq_true, if_false] at htable
        rw [Table.close_of_mem hfd] at htable
        rw [htable]
        refine ⟨hphase, rfl, rfl, Finset.notMem_erase fd _, Finset.Subset.refl _,
          fun _ => ⟨rfl, hrefs⟩, fun htrue => absurd htrue Bool.false_ne_true⟩
    | true =>
        -- The failure path closes the connection but not the epoll descriptor.
        simp only [hepoll, if_true] at htable
        rw [Table.close_of_mem (Finset.mem_insert_of_mem hfd)] at htable
        rw [htable]
        refine ⟨hphase, rfl, rfl, Finset.notMem_erase fd _,
          Finset.erase_subset_erase fd (Finset.subset_insert _ _),
          fun hfalse => absurd hfalse Bool.true_eq_false.mp, fun _ => ⟨⟨0, 0, 0⟩, hrefs, Or.inr ?_⟩⟩
        exact ⟨(p.table.openNew K).1, Finset.mem_erase.mpr ⟨hne, Finset.mem_insert_self _ _⟩,
          hfresh⟩

/-- `gatt_service` does not change the static variables of the loop. -/
theorem gattService_statics (o : GattOutcome) (fd : ℕ) (p : Proc) :
    (gattService K o fd p).fd = p.fd ∧ (gattService K o fd p).dd = p.dd := by
  unfold gattService
  simp only
  split
  · exact ⟨rfl, rfl⟩
  · exact ⟨rfl, rfl⟩
  · cases o.disconnects with
    | false => exact ⟨rfl, rfl⟩
    | true => exact ⟨rfl, rfl⟩

theorem restartAdvert_eq (K : Allocator) (t : Table) : restartAdvert K t = t :=
  Table.close_openNew

/-- Listening opens one descriptor, the one of the connection, if there is a
    connection. -/
theorem l2capLeAttListenAndAccept_eq (K : Allocator) (o : AcceptOutcome) (t : Table) :
    l2capLeAttListenAndAccept K o t = if o.succeeds then
        (some ((t.openNew K).2.openNew K).1,
          { t with held := insert ((t.openNew K).2.openNew K).1 t.held })
      else (none, t) := by
  unfold l2capLeAttListenAndAccept AcceptOutcome.succeeds
  cases hsocket : o.socket with
  | false => simp only [Bool.not_false, if_true, Bool.false_and, Bool.false_eq_true, if_false]
  | true =>
      simp only [Bool.not_true, Bool.false_eq_true, if_false, Bool.true_and]
      cases hrest : o.bind && o.setSecurity && o.listen && o.select && o.accept with
      | false =>
          simp only [Bool.not_false, if_true, Bool.false_eq_true, if_false, Table.close_openNew]
      | true =>
          simp only [Bool.not_true, Bool.false_eq_true, if_false, if_true, Table.close_older]

end Wallclock
