import PipelineGnmi.BigEndianProofs
import PipelineGnmi.TransitionProofs
import PipelineGnmi.MessageProofs
import PipelineGnmi.EncapStProofs
import PipelineGnmi.TcpStreamProofs
import PipelineGnmi.DataMsgProofs
import PipelineGnmi.TapProofs
import PipelineGnmi.ReplayProofs
import PipelineGnmi.GoMapProofs
import PipelineGnmi.MetricsSpecProofs
import PipelineGnmi.GpbKvMetricsProofs
import PipelineGnmi.GpbMetricsProofs
import PipelineGnmi.GoChanProofs
import PipelineGnmi.KafkaKeyProofs
import PipelineGnmi.MessageRouterProofs
import PipelineGnmi.SockDrawerProofs
import PipelineGnmi.TagCoherenceProofs
import PipelineGnmi.KafkaConsumerProofs
import PipelineGnmi.UdpServerProofs
import PipelineGnmi.LoadConfigProofs
import PipelineGnmi.CompactProofs
import PipelineGnmi.DatagramModeProofs
import PipelineGnmi.GnmiClientProofs
import PipelineGnmi.GnmiPrefixProofs
import PipelineGnmi.GrpcSupervisorProofs
import PipelineGnmi.GrpcOutChildrenProofs
import PipelineGnmi.GrpcOutputProofs
import PipelineGnmi.CtrlServiceProofs
import PipelineGnmi.QuiescenceProofs
import PipelineGnmi.TcpServerProofs
import PipelineGnmi.GnmiRunProofs
import PipelineGnmi.InputQuiescenceProofs
import PipelineGnmi.DrainProofs
import PipelineGnmi.OutputDrainProofs
import PipelineGnmi.InfluxOutputProofs
import PipelineGnmi.TcpDeliveryProofs
import PipelineGnmi.SockRenderingProofs
import PipelineGnmi.TagPassProofs
import PipelineGnmi.GnmiSensorPathProofs
import PipelineGnmi.ParserRunProofs
import PipelineGnmi.RawArchiveProofs
import PipelineGnmi.InfluxHuntProofs
import PipelineGnmi.Float64Proofs
import PipelineGnmi.StatRecordProofs
import PipelineGnmi.MetricGroupsProofs
import PipelineGnmi.InfluxHandlerProofs
import PipelineGnmi.ExpositionProofs
import PipelineGnmi.ReplaceRunsProofs
import PipelineGnmi.PrometheusLineProofs
import PipelineGnmi.PrometheusPushProofs
import PipelineGnmi.KafkaTopicProofs
import PipelineGnmi.KafkaCheckpointProofs
import PipelineGnmi.JsonTextProofs
import PipelineGnmi.JsonpbTextProofs
import PipelineGnmi.GpbStreamProofs
import PipelineGnmi.GpbTemplateProofs
import PipelineGnmi.GpbJsonProofs
import PipelineGnmi.PdtConversionProofs
import PipelineGnmi.TcpAcceptProofs
import PipelineGnmi.OutputPayloadsProofs
import PipelineGnmi.GoSliceProofs
import PipelineGnmi.KvSliceProofs
import PipelineGnmi.NameCacheProofs
import PipelineGnmi.CacheTransparencyProofs
import PipelineGnmi.ArrangementProofs
import PipelineGnmi.PushOrderProofs
import PipelineGnmi.ProjectionProofs
import PipelineGnmi.ConductorProofs
import PipelineGnmi.RelayProofs
import PipelineGnmi.GrpcDialinProofs
import PipelineGnmi.GrpcDialoutProofs
import PipelineGnmi.NodesProofs
import PipelineGnmi.ShutdownProofs
import PipelineGnmi.Base64Proofs
import PipelineGnmi.CryptProofs
import PipelineGnmi.InputConfigProofs
import PipelineGnmi.GnmiDeliveryProofs
import PipelineGnmi.KafkaHopProofs
