import IioEmu.Utils.XmlUtils

/-! # The bundled context document

The elements of `adalm2000.xml`, in the order of the file. The parser keeps the white space
between them. -/

namespace IioEmu.Adalm2000Document

def blank (depth : Nat) : XmlNode :=
  .node ⟨"text", [], String.ofList ('\n' :: List.replicate (4 * depth) ' ')⟩ []

/-- The children of an element, each on a line of its own. -/
def indented (depth : Nat) (children : List XmlNode) : List XmlNode :=
  children.flatMap (fun child => [blank (depth + 1), child]) ++ [blank depth]

def namedValue (tag name value : String) : XmlNode :=
  .node ⟨tag, [⟨"name", name⟩, ⟨"value", value⟩], ""⟩ []

def channelAttribute (name filename value : String) : XmlNode :=
  .node ⟨"attribute", [⟨"name", name⟩, ⟨"filename", filename⟩, ⟨"value", value⟩], ""⟩ []

def scanElement (index format : String) : XmlNode :=
  .node ⟨"scan-element", [⟨"index", index⟩, ⟨"format", format⟩], ""⟩ []

def channel (id type : String) (children : List XmlNode) : XmlNode :=
  .node ⟨"channel", [⟨"id", id⟩, ⟨"type", type⟩], ""⟩ (indented 2 children)

def namedChannel (id name type : String) (children : List XmlNode) : XmlNode :=
  .node ⟨"channel", [⟨"id", id⟩, ⟨"name", name⟩, ⟨"type", type⟩], ""⟩ (indented 2 children)

def device (id name : String) (children : List XmlNode) : XmlNode :=
  .node ⟨"device", [⟨"id", id⟩, ⟨"name", name⟩], ""⟩ (indented 1 children)

/-! ## Channels that repeat -/

def voltage (index : Nat) : String := "voltage" ++ toString index

def pinScan (index : Nat) : XmlNode := scanElement "0" ("le:u1/16>>" ++ toString index)

def logicInput (id : String) (scan : List XmlNode) : XmlNode :=
  channel id "input"
    (scan ++
      [channelAttribute "trigger" ("in_" ++ id ++ "_trigger") "none",
       channelAttribute "trigger_available" "in_voltage_trigger_available"
         "none edge-any edge-rising edge-falling level-low level-high",
       channelAttribute "trigger_delay" "in_voltage_trigger_delay" "0",
       channelAttribute "trigger_logic_mode" "in_voltage_trigger_logic_mode" "or",
       channelAttribute "trigger_logic_mode_available"
         "in_voltage_trigger_logic_mode_available" "or and",
       channelAttribute "trigger_mux_out" "in_voltage_trigger_mux_out"
         "trigger-logic",
       channelAttribute "trigger_mux_out_available"
         "in_voltage_trigger_mux_out_available" "trigger-in disabled"])

def pin (id : String) : XmlNode :=
  channel id "input"
    [channelAttribute "direction" ("in_" ++ id ++ "_direction") "in",
     channelAttribute "direction_available" "in_voltage_direction_available"
       "in out",
     channelAttribute "outputmode" ("in_" ++ id ++ "_outputmode") "push-pull",
     channelAttribute "outputmode_available" "in_voltage_outputmode_available"
       "push-pull open-drain",
     channelAttribute "raw" ("in_" ++ id ++ "_raw") "0.000000"]

def tone (id name : String) : XmlNode :=
  namedChannel id name "output"
    [channelAttribute "frequency" ("out_" ++ id ++ "_" ++ name ++ "_frequency") "0",
     channelAttribute "phase" ("out_" ++ id ++ "_" ++ name ++ "_phase") "0",
     channelAttribute "raw" ("out_" ++ id ++ "_" ++ name ++ "_raw") "1",
     channelAttribute "sampling_frequency" "out_altvoltage_sampling_frequency"
       "75000000",
     channelAttribute "scale" ("out_" ++ id ++ "_" ++ name ++ "_scale") "0.000000"]

/-! ## Devices -/

def device0 : XmlNode :=
  device "iio:device0" "m2k-adc"
    [channel "voltage0" "input"
       [scanElement "0" "le:s12/16>>0",
        channelAttribute "calibbias" "in_voltage0_calibbias" "1050",
        channelAttribute "calibscale" "in_voltage0_calibscale" "1.000000"],
     channel "voltage1" "input"
       [scanElement "1" "le:s12/16>>0",
        channelAttribute "calibbias" "in_voltage1_calibbias" "1060",
        channelAttribute "calibscale" "in_voltage1_calibscale" "1.000000"],
     namedValue "attribute" "oversampling_ratio" "1",
     namedValue "attribute" "sampling_frequency" "100000000",
     namedValue "attribute" "sampling_frequency_available"
       "1000 10000 100000 1000000 10000000 100000000",
     namedValue "buffer-attribute" "data_available" "0",
     namedValue "buffer-attribute" "length_align_bytes" "8",
     namedValue "buffer-attribute" "watermark" "2048",
     namedValue "debug-attribute" "direct_reg_access" "0xA0162"]

def device1 : XmlNode :=
  device "iio:device1" "xadc"
    [namedChannel "voltage5" "vccoddr" "input"
       [channelAttribute "raw" "in_voltage5_vccoddr_raw" "1815",
        channelAttribute "scale" "in_voltage5_vccoddr_scale" "0.732421875"],
     namedChannel "voltage0" "vccint" "input"
       [channelAttribute "raw" "in_voltage0_vccint_raw" "1352",
        channelAttribute "scale" "in_voltage0_vccint_scale" "0.732421875"],
     namedChannel "voltage4" "vccpaux" "input"
       [channelAttribute "raw" "in_voltage4_vccpaux_raw" "2421",
        channelAttribute "scale" "in_voltage4_vccpaux_scale" "0.732421875"],
     channel "temp0" "input"
       [channelAttribute "offset" "in_temp0_offset" "-2219",
        channelAttribute "raw" "in_temp0_raw" "2659",
        channelAttribute "scale" "in_temp0_scale" "123.040771484"],
     namedChannel "voltage7" "vrefn" "input"
       [channelAttribute "raw" "in_voltage7_vrefn_raw" "-7",
        channelAttribute "scale" "in_voltage7_vrefn_scale" "0.732421875"],
     namedChannel "voltage1" "vccaux" "input"
       [channelAttribute "raw" "in_voltage1_vccaux_raw" "2426",
        channelAttribute "scale" "in_voltage1_vccaux_scale" "0.732421875"],
     namedChannel "voltage2" "vccbram" "input"
       [channelAttribute "raw" "in_voltage2_vccbram_raw" "1354",
        channelAttribute "scale" "in_voltage2_vccbram_scale" "0.732421875"],
     namedChannel "voltage3" "vccpint" "input"
       [channelAttribute "raw" "in_voltage3_vccpint_raw" "1351",
        channelAttribute "scale" "in_voltage3_vccpint_scale" "0.732421875"],
     channel "voltage8" "input"
       [channelAttribute "raw" "in_voltage8_raw" "2845",
        channelAttribute "scale" "in_voltage8_scale" "0.244140625"],
     namedChannel "voltage6" "vrefp" "input"
       [channelAttribute "raw" "in_voltage6_vrefp_raw" "1696",
        channelAttribute "scale" "in_voltage6_vrefp_scale" "0.732421875"],
     namedValue "attribute" "sampling_frequency" "240384"]

def device10 : XmlNode :=
  device "iio:device10" "m2k-logic-analyzer-rx"
    ((List.range 16).map (fun index => logicInput (voltage index) [pinScan index]) ++
     [16, 17].map (fun index => logicInput (voltage index) []) ++
     [namedValue "attribute" "data_delay_auto" "auto",
      namedValue "attribute" "data_delay_auto_available" "auto manual",
      namedValue "attribute" "data_in_delay" "0",
      namedValue "attribute" "rate_mux" "logic_analyzer",
      namedValue "attribute" "rate_mux_available" "logic_analyzer oscilloscope",
      namedValue "attribute" "sampling_frequency" "100000000",
      namedValue "attribute" "streaming" "0",
      namedValue "attribute" "triggered" "1",
      namedValue "buffer-attribute" "data_available" "0",
      namedValue "buffer-attribute" "length_align_bytes" "8",
      namedValue "buffer-attribute" "watermark" "2048"])

def device11 : XmlNode :=
  device "iio:device11" "m2k-fabric"
    [channel "voltage0" "input"
       [channelAttribute "gain" "in_voltage0_gain" "low",
        channelAttribute "gain_available" "in_voltage_gain_available" "low high",
        channelAttribute "powerdown" "in_voltage_powerdown" "1"],
     channel "voltage0" "output"
       [channelAttribute "powerdown" "out_voltage0_powerdown" "1"],
     channel "voltage3" "output"
       [channelAttribute "user_supply_powerdown" "out_voltage3_user_supply_powerdown" "1"],
     channel "voltage4" "output"
       [channelAttribute "done_led_overwrite_powerdown"
          "out_voltage4_done_led_overwrite_powerdown" "0"],
     channel "voltage1" "output"
       [channelAttribute "powerdown" "out_voltage1_powerdown" "1"],
     channel "voltage2" "output"
       [channelAttribute "user_supply_powerdown" "out_voltage2_user_supply_powerdown" "1"],
     channel "voltage1" "input"
       [channelAttribute "gain" "in_voltage1_gain" "low",
        channelAttribute "gain_available" "in_voltage_gain_available" "low high",
        channelAttribute "powerdown" "in_voltage_powerdown" "1"],
     namedValue "attribute" "calibration_mode" "none",
     namedValue "attribute" "calibration_mode_available"
       "none adc_ref1 adc_ref2 adc_gnd dac",
     namedValue "attribute" "clk_powerdown" "1"]

def device12 : XmlNode :=
  device "iio:device12" "m2k-adc-trigger"
    [namedChannel "voltage4" "trigger_logic" "input"
       [channelAttribute "mode" "in_voltage4_trigger_logic_mode" "always",
        channelAttribute "mode_available" "in_voltage4_trigger_logic_mode_available"
          ("always digital analog digital_OR_analog digital_AND_analog " ++
           "digital_XOR_analog !digital_OR_analog !digital_AND_analog " ++
           "!digital_XOR_analog"),
        channelAttribute "out_direction" "in_voltage4_trigger_logic_out_direction" "in",
        channelAttribute "out_direction_available"
          "in_voltage4_trigger_logic_out_direction_available" "out in",
        channelAttribute "out_select" "in_voltage4_trigger_logic_out_select" "sw-trigger",
        channelAttribute "out_select_available"
          "in_voltage4_trigger_logic_out_select_available"
          "sw-trigger trigger-i-same-chan trigger-i-swap-chan trigger-adc trigger-in"],
     namedChannel "voltage5" "trigger_logic" "input"
       [channelAttribute "mode" "in_voltage5_trigger_logic_mode" "always",
        channelAttribute "mode_available" "in_voltage5_trigger_logic_mode_available"
          ("always digital analog digital_OR_analog digital_AND_analog " ++
           "digital_XOR_analog !digital_OR_analog !digital_AND_analog " ++
           "!digital_XOR_analog"),
        channelAttribute "out_direction" "in_voltage5_trigger_logic_out_direction" "out",
        channelAttribute "out_direction_available"
          "in_voltage5_trigger_logic_out_direction_available" "out in",
        channelAttribute "out_select" "in_voltage5_trigger_logic_out_select" "sw-trigger",
        channelAttribute "out_select_available"
          "in_voltage5_trigger_logic_out_select_available"
          "sw-trigger trigger-i-same-chan trigger-i-swap-chan trigger-adc trigger-in"],
     channel "voltage1" "input"
       [channelAttribute "trigger" "in_voltage1_trigger" "edge-rising",
        channelAttribute "trigger_available" "in_voltage1_trigger_available"
          "level-low level-high edge-rising edge-falling",
        channelAttribute "trigger_hysteresis" "in_voltage1_trigger_hysteresis" "0",
        channelAttribute "trigger_level" "in_voltage1_trigger_level" "0"],
     namedChannel "voltage6" "trigger" "input"
       [channelAttribute "delay" "in_voltage6_trigger_delay" "0",
        channelAttribute "embedded" "in_voltage6_trigger_embedded" "0",
        channelAttribute "logic_mode" "in_voltage6_trigger_logic_mode" "a",
        channelAttribute "logic_mode_available" "in_voltage6_trigger_logic_mode_available"
          ("a b a_OR_b a_AND_b a_XOR_b trigger_in a_OR_trigger_in b_OR_trigger_in " ++
           "a_OR_b_OR_trigger_in disabled")],
     channel "voltage2" "input"
       [channelAttribute "trigger" "in_voltage2_trigger" "level-low",
        channelAttribute "trigger_available" "in_voltage2_trigger_available"
          "level-low level-high edge-any edge-rising edge-falling"],
     channel "voltage0" "input"
       [channelAttribute "trigger" "in_voltage0_trigger" "edge-rising",
        channelAttribute "trigger_available" "in_voltage0_trigger_available"
          "level-low level-high edge-rising edge-falling",
        channelAttribute "trigger_hysteresis" "in_voltage0_trigger_hysteresis" "0",
        channelAttribute "trigger_level" "in_voltage0_trigger_level" "0"],
     channel "voltage3" "input"
       [channelAttribute "trigger" "in_voltage3_trigger" "level-low",
        channelAttribute "trigger_available" "in_voltage3_trigger_available"
          "level-low level-high edge-any edge-rising edge-falling"],
     namedValue "attribute" "holdoff_raw" "0",
     namedValue "attribute" "sampling_frequency" "100000000",
     namedValue "attribute" "streaming" "0",
     namedValue "attribute" "triggered" "1",
     namedValue "debug-attribute" "direct_reg_access" "0x30000"]

def device13 : XmlNode :=
  device "iio:device13" "ad9963"
    [channel "voltage1" "output"
       [channelAttribute "raw" "out_voltage1_raw" "0"],
     channel "temp0" "input"
       [channelAttribute "offset" "in_temp0_offset" "-1366",
        channelAttribute "raw" "in_temp0_raw" "1595",
        channelAttribute "scale" "in_temp0_scale" "200.000000000"],
     channel "voltage0" "input"
       [channelAttribute "raw" "in_voltage0_raw" "3130",
        channelAttribute "scale" "in_voltage0_scale" "0.781250000"],
     channel "voltage3" "input"
       [channelAttribute "raw" "in_voltage3_raw" "1073",
        channelAttribute "scale" "in_voltage3_scale" "0.781250000"],
     channel "voltage1" "input"
       [channelAttribute "raw" "in_voltage1_raw" "2",
        channelAttribute "scale" "in_voltage1_scale" "0.781250000"],
     channel "voltage4" "input"
       [channelAttribute "raw" "in_voltage4_raw" "953",
        channelAttribute "scale" "in_voltage4_scale" "0.781250000"],
     channel "voltage5" "input"
       [channelAttribute "raw" "in_voltage5_raw" "1772",
        channelAttribute "scale" "in_voltage5_scale" "0.781250000"],
     channel "voltage0" "output"
       [channelAttribute "raw" "out_voltage0_raw" "0"],
     channel "voltage2" "input"
       [channelAttribute "raw" "in_voltage2_raw" "0",
        channelAttribute "scale" "in_voltage2_scale" "0.781250000"],
     namedValue "debug-attribute" "direct_reg_access" "0x18"]

def device2 : XmlNode :=
  device "iio:device2" "ad5625"
    [channel "voltage1" "output"
       [channelAttribute "powerdown" "out_voltage1_powerdown" "0",
        channelAttribute "powerdown_mode" "out_voltage1_powerdown_mode" "1kohm_to_gnd",
        channelAttribute "powerdown_mode_available" "out_voltage_powerdown_mode_available"
          "1kohm_to_gnd 100kohm_to_gnd three_state",
        channelAttribute "raw" "out_voltage1_raw" "2048",
        channelAttribute "scale" "out_voltage1_scale" "0.292968750"],
     channel "voltage2" "output"
       [channelAttribute "powerdown" "out_voltage2_powerdown" "0",
        channelAttribute "powerdown_mode" "out_voltage2_powerdown_mode" "1kohm_to_gnd",
        channelAttribute "powerdown_mode_available" "out_voltage_powerdown_mode_available"
          "1kohm_to_gnd 100kohm_to_gnd three_state",
        channelAttribute "raw" "out_voltage2_raw" "2048",
        channelAttribute "scale" "out_voltage2_scale" "0.292968750"],
     channel "voltage0" "output"
       [channelAttribute "powerdown" "out_voltage0_powerdown" "0",
        channelAttribute "powerdown_mode" "out_voltage0_powerdown_mode" "1kohm_to_gnd",
        channelAttribute "powerdown_mode_available" "out_voltage_powerdown_mode_available"
          "1kohm_to_gnd 100kohm_to_gnd three_state",
        channelAttribute "raw" "out_voltage0_raw" "2048",
        channelAttribute "scale" "out_voltage0_scale" "0.292968750"],
     channel "voltage3" "output"
       [channelAttribute "powerdown" "out_voltage3_powerdown" "0",
        channelAttribute "powerdown_mode" "out_voltage3_powerdown_mode" "1kohm_to_gnd",
        channelAttribute "powerdown_mode_available" "out_voltage_powerdown_mode_available"
          "1kohm_to_gnd 100kohm_to_gnd three_state",
        channelAttribute "raw" "out_voltage3_raw" "2048",
        channelAttribute "scale" "out_voltage3_scale" "0.292968750"]]

def device3 : XmlNode :=
  device "iio:device3" "ad5627"
    [channel "voltage1" "output"
       [channelAttribute "powerdown" "out_voltage1_powerdown" "1",
        channelAttribute "powerdown_mode" "out_voltage1_powerdown_mode" "1kohm_to_gnd",
        channelAttribute "powerdown_mode_available" "out_voltage_powerdown_mode_available"
          "1kohm_to_gnd 100kohm_to_gnd three_state",
        channelAttribute "raw" "out_voltage1_raw" "-0.000000",
        channelAttribute "scale" "out_voltage1_scale" "0.292968750"],
     channel "voltage0" "output"
       [channelAttribute "powerdown" "out_voltage0_powerdown" "1",
        channelAttribute "powerdown_mode" "out_voltage0_powerdown_mode" "1kohm_to_gnd",
        channelAttribute "powerdown_mode_available" "out_voltage_powerdown_mode_available"
          "1kohm_to_gnd 100kohm_to_gnd three_state",
        channelAttribute "raw" "out_voltage0_raw" "0.000000",
        channelAttribute "scale" "out_voltage0_scale" "0.292968750"]]

def device4 : XmlNode :=
  device "iio:device4" "pll"
    [channel "altvoltage0" "output"
       [channelAttribute "frequency" "out_altvoltage0_frequency" "100000000",
        channelAttribute "mute_till_lock_detect" "out_altvoltage0_mute_till_lock_detect"
          "1",
        channelAttribute "muxout_mode" "out_altvoltage0_muxout_mode" "lock-detect",
        channelAttribute "muxout_mode_available" "out_altvoltage_muxout_mode_available"
          "three-state lock-detect ndiv dvdd rdiv od-ld sdo gnd",
        channelAttribute "pfd_frequency" "out_altvoltage0_pfd_frequency" "5000000",
        channelAttribute "power_down" "out_altvoltage0_power_down" "normal",
        channelAttribute "power_down_available" "out_altvoltage_power_down_available"
          "normal soft-async ce soft-sync regulator",
        channelAttribute "power_level" "out_altvoltage0_power_level" "5000-uA",
        channelAttribute "power_level_available" "out_altvoltage_power_level_available"
          "3500-uA 5000-uA 7500-uA 11000-uA",
        channelAttribute "refin_frequency" "out_altvoltage0_refin_frequency" "20000000"],
     namedValue "debug-attribute" "direct_reg_access" "0xFD924"]

def device5 : XmlNode :=
  device "iio:device5" "m2k-dds"
    [tone "altvoltage3" "2B",
     tone "altvoltage0" "1A",
     tone "altvoltage1" "1B",
     tone "altvoltage2" "2A",
     namedValue "debug-attribute" "direct_reg_access" "0x90162"]

def device6 : XmlNode :=
  device "iio:device6" "m2k-dac-a"
    [channel "voltage0" "output"
       [scanElement "0" "le:S16/16>>0"],
     namedValue "attribute" "calibscale" "1.000000",
     namedValue "attribute" "dma_sync" "1",
     namedValue "attribute" "dma_sync_start" "1",
     namedValue "attribute" "oversampling_ratio" "1",
     namedValue "attribute" "sampling_frequency" "75000000",
     namedValue "attribute" "sampling_frequency_available"
       "750 7500 75000 750000 7500000 75000000",
     namedValue "attribute" "trigger_condition" "none",
     namedValue "attribute" "trigger_condition_available"
       "none level-low level-high edge-any edge-rising edge-falling",
     namedValue "attribute" "trigger_src" "none",
     namedValue "attribute" "trigger_src_available"
       "none trigger-i_0 trigger-i_1 trigger-adc trigger-la",
     namedValue "buffer-attribute" "data_available" "0",
     namedValue "buffer-attribute" "length_align_bytes" "8",
     namedValue "buffer-attribute" "watermark" "2048",
     namedValue "debug-attribute" "direct_reg_access" "0x20100"]

def device7 : XmlNode :=
  device "iio:device7" "m2k-dac-b"
    [channel "voltage0" "output"
       [scanElement "0" "le:S16/16>>0"],
     namedValue "attribute" "calibscale" "1.000000",
     namedValue "attribute" "dma_sync" "1",
     namedValue "attribute" "dma_sync_start" "1",
     namedValue "attribute" "oversampling_ratio" "1",
     namedValue "attribute" "sampling_frequency" "75000000",
     namedValue "attribute" "sampling_frequency_available"
       "750 7500 75000 750000 7500000 75000000",
     namedValue "attribute" "trigger_condition" "none",
     namedValue "attribute" "trigger_condition_available"
       "none level-low level-high edge-any edge-rising edge-falling",
     namedValue "attribute" "trigger_src" "none",
     namedValue "attribute" "trigger_src_available"
       "none trigger-i_0 trigger-i_1 trigger-adc trigger-la",
     namedValue "buffer-attribute" "data_available" "0",
     namedValue "buffer-attribute" "length_align_bytes" "8",
     namedValue "buffer-attribute" "watermark" "2048",
     namedValue "debug-attribute" "direct_reg_access" "0x20100"]

def device8 : XmlNode :=
  device "iio:device8" "m2k-logic-analyzer"
    (([6, 3, 8, 10, 2, 14, 12, 5, 4, 9, 7, 0, 11, 15, 13, 1].map fun index =>
        pin (voltage index)) ++
     [namedValue "attribute" "clocksource" "internal",
      namedValue "attribute" "clocksource_available" "internal external",
      namedValue "attribute" "powerdown" "0",
      namedValue "attribute" "sampling_frequency" "99999999",
      namedValue "debug-attribute" "direct_reg_access" "0x20100"])

def device9 : XmlNode :=
  device "iio:device9" "m2k-logic-analyzer-tx"
    ((List.range 16).map (fun index => channel (voltage index) "output" [pinScan index]) ++
     [namedValue "attribute" "sampling_frequency" "100000000",
      namedValue "attribute" "trigger_condition" "none",
      namedValue "attribute" "trigger_condition_available"
        "none level-low level-high edge-any edge-rising edge-falling",
      namedValue "attribute" "trigger_src" "none",
      namedValue "attribute" "trigger_src_available"
        "none trigger-i_0 trigger-i_1 trigger-adc trigger-la",
      namedValue "buffer-attribute" "data_available" "0",
      namedValue "buffer-attribute" "length_align_bytes" "8",
      namedValue "buffer-attribute" "watermark" "2048"])

def contextAttributes : List XmlNode :=
  [namedValue "context-attribute" "hw_model" "Analog Devices M2k Rev.C (Z7010)",
   namedValue "context-attribute" "hw_model_variant" "0",
   namedValue "context-attribute" "hw_serial" "ADALM2000 Demo",
   namedValue "context-attribute" "fw_version" "v0.26",
   namedValue "context-attribute" "cal,offset_pos_dac" "0.018",
   namedValue "context-attribute" "cal,gain_pos_dac" "0.998048",
   namedValue "context-attribute" "cal,offset_pos_adc" "0.000730159",
   namedValue "context-attribute" "cal,gain_pos_adc" "0.995132",
   namedValue "context-attribute" "cal,offset_neg_dac" "0.0017",
   namedValue "context-attribute" "cal,gain_neg_dac" "0.996722",
   namedValue "context-attribute" "cal,offset_neg_adc" "-0.00167558",
   namedValue "context-attribute" "cal,gain_neg_adc" "1.00724",
   namedValue "context-attribute" "local,kernel" "4.19.0-gbd9f616",
   namedValue "context-attribute" "uri" "ip:127.0.0.1",
   namedValue "context-attribute" "ip,ip-addr" "127.0.0.1"]

def root : XmlNode :=
  .node ⟨"context",
      [⟨"name", "network"⟩,
       ⟨"description",
        "192.168.2.1 Linux (none) 4.19.0-gbd9f616 #102 SMP PREEMPT " ++
        "Thu Sep 17 09:44:38 CEST 2020 armv7l"⟩], ""⟩
    (indented 0 (contextAttributes ++
      [device0, device1, device10, device11, device12, device13, device2, device3, device4,
       device5, device6, device7, device8, device9]))

/-- The document every `Adalm2000Context` starts from. -/
def adalm2000Xml : XmlDoc := ⟨some root⟩

end IioEmu.Adalm2000Document
