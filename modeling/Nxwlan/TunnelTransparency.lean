import Nxwlan.SwitchForwarding

/-!
A frame that crosses a tunnel between two switches arrives as it was sent. The
first switch puts an Ethernet header in front of it, the second takes it off;
what the two parsers split into headers the deparsers put together again, on
every branch of the parser.
-/
namespace Nxwlan.TunnelTransparency

open ByteFields SwitchParser P4Switch SwitchWiring SwitchForwarding

variable {pkt : Packet} {frame : Bytes}

/-- The frame of a radio port, parsed. -/
theorem start_radio {r : ℕ} (hr : r = 0 ∨ r = 1) (hparse : start (arriving r frame) = some pkt) :
    parse_radiotap (arriving r frame) = some pkt ∧
      ∃ h fc, Recognised (arriving r frame) pkt h fc := by
  have hradio : parse_radiotap (arriving r frame) = some pkt := by
    rw [← hparse, start, if_pos (by exact hr)]
  exact ⟨hradio, parse_radiotap_recognised (arriving_bare r frame) hradio⟩

/-- The header that `add_eth_header` puts in front of a packet. -/
def tunnelHeader (pkt : Packet) : Ethernet :=
  ⟨pkt.dot11_fc_metadata.da, pkt.dot11_fc_metadata.sa, CRAN_RADIO_TAP⟩

/-- The bytes on the tunnel: the frame behind an Ethernet header. -/
theorem deparser_tunnel {r : ℕ} {h : Radiotap} {fc : Dot11FrameControl}
    (hrec : Recognised (arriving r frame) pkt h fc) :
    deparser (Action.add_eth_header.run pkt) = ethernet_t.emit (tunnelHeader pkt) ++ frame := by
  have hbytes : deparser { pkt with ethernet := none } = frame := hrec.bytes
  rw [← hbytes]
  rfl

/-- The second switch parses them into the same packet, behind its Ethernet header. -/
theorem start_tunnel {r t : ℕ} {h : Radiotap} {fc : Dot11FrameControl} (ht : 2 ≤ t)
    (hradio : parse_radiotap (arriving r frame) = some pkt)
    (hrec : Recognised (arriving r frame) pkt h fc) :
    start (arriving t (ethernet_t.emit (tunnelHeader pkt) ++ frame)) =
      some (pkt.wrap { ingress_port := t } (some (tunnelHeader pkt))) := by
  have hfit : List.Forall₂ (fun v k => v < 256 ^ k) (ethernet_t.fields (tunnelHeader pkt))
      ethernet_t.widths := by
    have htype : CRAN_RADIO_TAP < 256 ^ 2 := by decide
    exact .cons hrec.da (.cons hrec.sa (.cons htype .nil))
  have hx := ethernet_t.extract_emit hfit frame
  have hno : ¬ (t = 0 ∨ t = 1) := by omega
  have hwrap := parse_radiotap_wrap (arriving r frame) { ingress_port := t }
    (some (tunnelHeader pkt))
  rw [hradio, Option.map_some] at hwrap
  rw [start, if_neg (by exact hno), parse_ethernet]
  have hx' : ethernet_t.extract (arriving t (ethernet_t.emit (tunnelHeader pkt) ++ frame)).payload =
      some (tunnelHeader pkt, frame) := hx
  rw [hx', Option.bind_some]
  exact (if_pos rfl).trans hwrap

/-- Taking the header off again leaves the frame. -/
theorem deparser_radio {r : ℕ} {h : Radiotap} {fc : Dot11FrameControl} (std : StandardMetadata)
    (e : Option Ethernet) (hrec : Recognised (arriving r frame) pkt h fc) :
    deparser (Action.remove_eth_header.run (pkt.wrap std e)) = frame :=
  hrec.bytes

/-- Tunnel transparency. Let a frame be parsed on a radio port and sent to a tunnel
port, and its bytes be received on a tunnel port of another switch and sent
to a radio port. The second switch parses them, and the bytes it sends are
the frame. In particular this holds when the two switches decide by their
own tables to forward. -/
theorem tunnel_transparent (roles₁ roles₂ : List Role) (m₁ m₂ : P4SwitchManager)
    (hm₁ : Programmed roles₁ m₁) (hm₂ : Programmed roles₂ m₂) (r t : ℕ) (hr : r = 0 ∨ r = 1)
    (ht : 2 ≤ t) (frame : Bytes) (pkt : Packet) (hparse : start (arriving r frame) = some pkt) :
    (∀ q r',
      m₁.switch.table_modify_ethernet_header.entries.lookup q = some .add_eth_header →
      m₂.switch.table_modify_ethernet_header.entries.lookup r' = some .remove_eth_header →
      ∃ bytes pkt', transmit m₁.switch (Packet.setEgressSpec pkt q) = .sent q bytes ∧
        start (arriving t bytes) = some pkt' ∧
        transmit m₂.switch (Packet.setEgressSpec pkt' r') = .sent r' frame) ∧
    ∀ q r' bytes out, 2 ≤ q → r' < 2 → process m₁.switch r frame = .sent q bytes →
      process m₂.switch t bytes = .sent r' out → out = frame := by
  have hw₁ := programmed_wiring hm₁
  have hw₂ := programmed_wiring hm₂
  obtain ⟨hradio, h, fc, hrec⟩ := start_radio hr hparse
  have htunnel := start_tunnel ht hradio hrec
  refine ⟨fun q r' hadd hremove => ?_, fun q r' bytes out hq hr' hsent₁ hsent₂ => ?_⟩
  · have hq : q ≠ DROP_PORT := by
      have := (hw₁.headers.entry q _ hadd).2
      unfold DROP_PORT
      omega
    have hr' : r' ≠ DROP_PORT := by
      have := (hw₂.headers.entry r' _ hremove).2
      unfold DROP_PORT
      omega
    refine ⟨_, pkt.wrap { ingress_port := t } (some (tunnelHeader pkt)),
      transmit_header hadd (Or.inl rfl) hq pkt, ?_, ?_⟩
    · rw [deparser_tunnel hrec]
      exact htunnel
    · rw [transmit_header hremove (Or.inr rfl) hr', deparser_radio _ _ hrec]
  · obtain ⟨-, rfl⟩ := (process_recognised hw₁ hparse (by simp [hrec.radiotap])
      (by simp [hrec.control]) (by rw [hrec.standard]; rfl) q bytes).mp hsent₁
    rw [portHeader, if_neg (by omega), deparser_tunnel hrec] at hsent₂
    obtain ⟨-, rfl⟩ := (process_recognised hw₂ htunnel (by simp [Packet.wrap, hrec.radiotap])
      (by simp [Packet.wrap, hrec.control]) rfl r' out).mp hsent₂
    rw [portHeader, if_pos hr', deparser_radio _ _ hrec]

/-- A frame from hwsim0 of one access point to the monitor interface of its neighbor. -/
theorem tunnel_transparent_sample : ∃ bytes out,
    process (setup .localVap "l2tpeth0" started).2.switch 0 sampleFrame = .sent 2 bytes ∧
      process (setup .remoteVap "l2tpeth0" started).2.switch 2 bytes = .sent 1 out ∧
      out = sampleFrame := by
  refine ⟨_, _, rfl, rfl, ?_⟩
  exact (tunnel_transparent _ _ _ _ (Programmed.started.setup .localVap "l2tpeth0")
    (Programmed.started.setup .remoteVap "l2tpeth0") 0 2 (by decide) (by decide) sampleFrame
    ((start (arriving 0 sampleFrame)).get (by decide)) (Option.some_get _).symm).2 2 1 _ _
    (by decide) (by decide) rfl rfl

end Nxwlan.TunnelTransparency
